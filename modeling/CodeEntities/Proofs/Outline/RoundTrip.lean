import CodeEntities.Calls.Call
import CodeEntities.Proofs.Json.Written
import CodeEntities.Proofs.Outline.Located

namespace CodeEntities

open Json

-- The numbers of a location, of a function and of a call are of the sizes in which they are
-- exchanged.

structure Location.Fits (l : Location) : Prop where
  startLine : l.startLine ≤ maxSize
  endLine : l.endLine ≤ maxSize
  startColumn : l.startColumn ≤ maxSize
  endColumn : l.endColumn ≤ maxSize

structure FunctionDecl.Fits (f : FunctionDecl) : Prop where
  location : f.location.Fits
  complexity : f.complexity ≤ maxWord

structure FunctionCall.Fits (c : FunctionCall) : Prop where
  line : c.line ≤ maxSize
  column : c.column ≤ maxSize

structure Outline.Fits (o : Outline) : Prop where
  functions : ∀ f ∈ o.functions, f.Fits
  classes : ∀ c ∈ o.classes, c.Located FunctionDecl.Fits Location.Fits
  interfaces : ∀ i ∈ o.interfaces, i.Located FunctionDecl.Fits Location.Fits
  typeAliases : ∀ a ∈ o.typeAliases, a.location.Fits
  bindings : ∀ v ∈ o.bindings, v.location.Fits
  imports : ∀ i ∈ o.imports, i.location.Fits
  exports : ∀ e ∈ o.exports, e.location.Fits
  errors : ∀ e ∈ o.errors, e.location.Fits

-- Every constant is known by its name.

theorem Modifier.known (m : Modifier) : Modifier.ofName? m.name = some m := by cases m <;> rfl

theorem Visibility.known (v : Visibility) : Visibility.ofName? v.name = some v := by
  cases v <;> rfl

theorem ClassKind.known (k : ClassKind) : ClassKind.ofName? k.name = some k := by cases k <;> rfl

theorem VariableKind.known (k : VariableKind) : VariableKind.ofName? k.name = some k := by
  cases k <;> rfl

theorem SpecifierKind.known (k : SpecifierKind) : SpecifierKind.ofName? k.name = some k := by
  cases k <;> rfl

theorem ExportKind.known (k : ExportKind) : ExportKind.ofName? k.name = some k := by
  cases k <;> rfl

theorem Severity.known (s : Severity) : Severity.ofName? s.name = some s := by cases s; rfl

theorem Language.known (l : Language) : Language.ofName? l.name = some l := by cases l <;> rfl

theorem strings_back (items : List String) :
    ReadBack (asList? asString?) (Json.ofList string items) items :=
  list_back fun s _ => string_back s

-- A list of keywords is read as the set of them, whatever their order and number.
theorem Modifiers.ofJson_keywords (ms : List Modifier) :
    Modifiers.ofJson? (Json.ofList (fun m => string m.name) ms) = some (ofList ms) := by
  have read := (list_back fun m (_ : m ∈ ms) => constant_back m.known).back _ (.same _)
  rw [Modifiers.ofJson?, read, Option.map_some]

theorem Modifiers.readBack (s : Modifiers) : ReadBack Modifiers.ofJson? s.toJson s where
  present := nofun
  back k written := by
    have read := (list_back fun m (_ : m ∈ s.members) => constant_back m.known).back k written
    rw [Modifiers.ofJson?, read, Option.map_some, ofList_members]

-- Each record is read back field by field, in the order of its decoder.

theorem Location.Fits.readBack {l : Location} (fits : l.Fits) :
    ReadBack Location.ofJson? l.toJson l := by
  refine record_back fun get fields => ?_
  refine fields.required rfl (string_back _) ?_
  refine fields.required rfl (nat_back fits.startLine) ?_
  refine fields.required rfl (nat_back fits.endLine) ?_
  refine fields.required rfl (nat_back fits.startColumn) ?_
  refine fields.required rfl (nat_back fits.endColumn) ?_
  rfl

theorem Parameter.readBack (p : Parameter) : ReadBack Parameter.ofJson? p.toJson p := by
  refine record_back fun get fields => ?_
  refine fields.required rfl (string_back _) ?_
  refine fields.optional rfl (fun s _ => string_back s) ?_
  refine fields.required rfl (bool_back _) ?_
  refine fields.required rfl (bool_back _) ?_
  refine fields.optional rfl (fun s _ => string_back s) ?_
  rfl

-- The members of a function may be the first ones of a larger record.
theorem FunctionDecl.fields_back {f : FunctionDecl} (fits : f.Fits) {more : List (String × Json)}
    {get : String → Option Json} (fields : Fields (f.members ++ more) get) :
    FunctionDecl.ofFields? get = some f := by
  refine fields.required rfl (string_back _) ?_
  refine fields.required rfl (list_back fun p _ => p.readBack) ?_
  refine fields.optional rfl (fun s _ => string_back s) ?_
  refine fields.required rfl (strings_back _) ?_
  refine fields.required rfl (string_back _) ?_
  refine fields.required rfl fits.location.readBack ?_
  refine fields.required rfl f.modifiers.readBack ?_
  refine fields.optional rfl (fun s _ => string_back s) ?_
  refine fields.required rfl (string_back _) ?_
  refine fields.required rfl (nat_back fits.complexity) ?_
  rfl

theorem FunctionDecl.Fits.readBack {f : FunctionDecl} (fits : f.Fits) :
    ReadBack FunctionDecl.ofJson? f.toJson f := by
  have whole : f.members ++ [] = f.members := List.append_nil f.members
  exact record_back fun get fields => FunctionDecl.fields_back fits (whole.symm ▸ fields)

theorem MethodDecl.readBack {m : MethodDecl} (fits : m.function.Fits) :
    ReadBack MethodDecl.ofJson? m.toJson m where
  present := nofun
  back k written := by
    obtain ⟨others, rfl, fields⟩ := written.fields
    change (FunctionDecl.ofFields? _ >>= _) = _
    rw [FunctionDecl.fields_back fits fields]
    refine fields.required rfl (constant_back m.visibility.known) ?_
    refine fields.required rfl (bool_back _) ?_
    refine fields.required rfl (bool_back _) ?_
    refine fields.required rfl (bool_back _) ?_
    refine fields.required rfl (bool_back _) ?_
    rfl

theorem PropertyDecl.readBack {p : PropertyDecl} (fits : p.location.Fits) :
    ReadBack PropertyDecl.ofJson? p.toJson p := by
  refine record_back fun get fields => ?_
  refine fields.required rfl (string_back _) ?_
  refine fields.optional rfl (fun s _ => string_back s) ?_
  refine fields.required rfl (constant_back p.visibility.known) ?_
  refine fields.required rfl (bool_back _) ?_
  refine fields.required rfl (bool_back _) ?_
  refine fields.required rfl (bool_back _) ?_
  refine fields.optional rfl (fun s _ => string_back s) ?_
  refine fields.required rfl fits.readBack ?_
  refine fields.optional rfl (fun s _ => string_back s) ?_
  rfl

theorem ClassDecl.readBack {c : ClassDecl} (fits : c.Located FunctionDecl.Fits Location.Fits) :
    ReadBack ClassDecl.ofJson? c.toJson c := by
  obtain ⟨place, methods, properties, constructor⟩ := fits
  refine record_back fun get fields => ?_
  refine fields.required rfl (string_back _) ?_
  refine fields.required rfl (constant_back c.kind.known) ?_
  refine fields.required rfl (strings_back _) ?_
  refine fields.optional rfl (fun s _ => string_back s) ?_
  refine fields.required rfl (strings_back _) ?_
  refine fields.required rfl (list_back fun m own => MethodDecl.readBack (methods m own)) ?_
  refine fields.required rfl (list_back fun p own => PropertyDecl.readBack (properties p own)) ?_
  refine fields.optional rfl (fun m own => MethodDecl.readBack (constructor m own)) ?_
  refine fields.required rfl place.readBack ?_
  refine fields.required rfl c.modifiers.readBack ?_
  refine fields.optional rfl (fun s _ => string_back s) ?_
  refine fields.required rfl (bool_back _) ?_
  rfl

theorem InterfaceDecl.readBack {i : InterfaceDecl}
    (fits : i.Located FunctionDecl.Fits Location.Fits) :
    ReadBack InterfaceDecl.ofJson? i.toJson i := by
  obtain ⟨place, methods, properties, _⟩ := fits
  refine record_back fun get fields => ?_
  refine fields.required rfl (string_back _) ?_
  refine fields.required rfl (strings_back _) ?_
  refine fields.required rfl (strings_back _) ?_
  refine fields.required rfl (list_back fun p own => PropertyDecl.readBack (properties p own)) ?_
  refine fields.required rfl (list_back fun m own => MethodDecl.readBack (methods m own)) ?_
  refine fields.required rfl place.readBack ?_
  refine fields.required rfl i.modifiers.readBack ?_
  refine fields.optional rfl (fun s _ => string_back s) ?_
  rfl

theorem TypeAliasDecl.readBack {a : TypeAliasDecl} (fits : a.location.Fits) :
    ReadBack TypeAliasDecl.ofJson? a.toJson a := by
  refine record_back fun get fields => ?_
  refine fields.required rfl (string_back _) ?_
  refine fields.required rfl (strings_back _) ?_
  refine fields.required rfl (string_back _) ?_
  refine fields.required rfl fits.readBack ?_
  refine fields.required rfl a.modifiers.readBack ?_
  refine fields.optional rfl (fun s _ => string_back s) ?_
  rfl

theorem VariableDecl.readBack {v : VariableDecl} (fits : v.location.Fits) :
    ReadBack VariableDecl.ofJson? v.toJson v := by
  refine record_back fun get fields => ?_
  refine fields.required rfl (string_back _) ?_
  refine fields.required rfl (constant_back v.kind.known) ?_
  refine fields.optional rfl (fun s _ => string_back s) ?_
  refine fields.optional rfl (fun s _ => string_back s) ?_
  refine fields.required rfl fits.readBack ?_
  refine fields.required rfl v.modifiers.readBack ?_
  refine fields.optional rfl (fun s _ => string_back s) ?_
  rfl

theorem ImportSpecifier.readBack (s : ImportSpecifier) :
    ReadBack ImportSpecifier.ofJson? s.toJson s := by
  refine record_back fun get fields => ?_
  refine fields.required rfl (string_back _) ?_
  refine fields.required rfl (string_back _) ?_
  refine fields.required rfl (constant_back s.kind.known) ?_
  rfl

theorem ImportDecl.readBack {i : ImportDecl} (fits : i.location.Fits) :
    ReadBack ImportDecl.ofJson? i.toJson i := by
  refine record_back fun get fields => ?_
  refine fields.required rfl (string_back _) ?_
  refine fields.required rfl (list_back fun s _ => s.readBack) ?_
  refine fields.required rfl (bool_back _) ?_
  refine fields.required rfl (bool_back _) ?_
  refine fields.required rfl fits.readBack ?_
  rfl

theorem ExportDecl.readBack {e : ExportDecl} (fits : e.location.Fits) :
    ReadBack ExportDecl.ofJson? e.toJson e := by
  refine record_back fun get fields => ?_
  refine fields.required rfl (string_back _) ?_
  refine fields.optional rfl (fun s _ => string_back s) ?_
  refine fields.required rfl (constant_back e.kind.known) ?_
  refine fields.optional rfl (fun s _ => string_back s) ?_
  refine fields.required rfl (bool_back _) ?_
  refine fields.required rfl fits.readBack ?_
  rfl

theorem ParseError.readBack {e : ParseError} (fits : e.location.Fits) :
    ReadBack ParseError.ofJson? e.toJson e := by
  refine record_back fun get fields => ?_
  refine fields.required rfl (string_back _) ?_
  refine fields.required rfl fits.readBack ?_
  refine fields.required rfl (constant_back e.severity.known) ?_
  rfl

theorem Outline.Fits.readBack {o : Outline} (fits : o.Fits) :
    ReadBack Outline.ofJson? o.toJson o := by
  refine record_back fun get fields => ?_
  refine fields.required rfl (string_back _) ?_
  refine fields.required rfl (constant_back o.language.known) ?_
  refine fields.required rfl (list_back fun f own => (fits.functions f own).readBack) ?_
  refine fields.required rfl (list_back fun c own => ClassDecl.readBack (fits.classes c own)) ?_
  refine fields.required rfl
    (list_back fun i own => InterfaceDecl.readBack (fits.interfaces i own)) ?_
  refine fields.required rfl
    (list_back fun a own => TypeAliasDecl.readBack (fits.typeAliases a own)) ?_
  refine fields.required rfl
    (list_back fun v own => VariableDecl.readBack (fits.bindings v own)) ?_
  refine fields.required rfl (list_back fun i own => ImportDecl.readBack (fits.imports i own)) ?_
  refine fields.required rfl (list_back fun e own => ExportDecl.readBack (fits.exports e own)) ?_
  refine fields.required rfl (list_back fun e own => ParseError.readBack (fits.errors e own)) ?_
  rfl

theorem FunctionCall.Fits.readBack {c : FunctionCall} (fits : c.Fits) :
    ReadBack FunctionCall.ofJson? c.toJson c := by
  obtain ⟨_, _, _, line, column, _, _, _, receiver, arguments⟩ := c
  refine record_back fun get fields => ?_
  have given : optional? get "receiver" asString? = some receiver := by
    cases receiver with
    | none => exact fields.missing_eq rfl
    | some text => exact fields.optional_eq rfl fun s _ => string_back s
  refine fields.required rfl (string_back _) ?_
  refine fields.required rfl (string_back _) ?_
  refine fields.required rfl (string_back _) ?_
  refine fields.required rfl (nat_back fits.line) ?_
  refine fields.required rfl (nat_back fits.column) ?_
  refine fields.required rfl (bool_back _) ?_
  refine fields.required rfl (bool_back _) ?_
  refine fields.required rfl (bool_back _) ?_
  rw [given]
  refine fields.required (by cases receiver <;> rfl) (strings_back arguments) ?_
  rfl

namespace Outline

-- A file and a call are read back from whatever way of writing them, and keywords are written
-- again as the set of them: each once, in the order of the modifiers.
theorem written_values_are_read_back :
    (∀ o : Outline, o.Fits → ∀ j, Written o.toJson j → ofJson? j = some o) ∧
      (∀ c : FunctionCall, c.Fits → ∀ j, Written c.toJson j → FunctionCall.ofJson? j = some c) ∧
      ∀ ms : List Modifier,
        (Modifiers.ofJson? (Json.ofList (fun m => string m.name) ms)).map Modifiers.toJson =
          some (Json.ofList (fun m => string m.name) (Modifier.all.filter fun m => ms.contains m)) :=
  ⟨fun _ fits => fits.readBack.back, fun _ fits => fits.readBack.back,
    fun ms => by rw [Modifiers.ofJson_keywords ms]; rfl⟩

def passingMethod : FunctionDecl where
  name := "m"
  params := [{ name := "x" }]
  returnType := none
  typeParams := ["T"]
  body := ""
  location := ⟨"a.ts", 1, 1, 0, 9⟩
  modifiers := .ofList [.abstract, .isPublic]
  docComment := none
  signature := "m<T>(x)"
  complexity := 1

def passingFile : Outline :=
  let location := passingMethod.location
  { filePath := "a.ts"
    language := .typescript
    classes := [{ name := "A", methods := [.ofFunction passingMethod .isPublic], location }]
    exports := [{ name := "b", kind := .reExport, source := some "./b", location }] }

def plainCall : FunctionCall where
  callerId := "a.ts:f"
  callerName := "f"
  calleeName := "g"
  line := 1
  column := 2
  isDirect := true
  isAwaited := false
  isConstructor := false

theorem null_receiver_is_read_back :
    passingFile.Fits ∧ plainCall.Fits ∧
      ∃ members, plainCall.toJson = object members ∧
        Written plainCall.toJson (object (members ++ [("receiver", null)])) ∧
        ofJson? passingFile.toJson = some passingFile ∧
        FunctionCall.ofJson? (object (members ++ [("receiver", null)])) = some plainCall := by
  have location : Location.Fits ⟨"a.ts", 1, 1, 0, 9⟩ := by constructor <;> decide
  have method : FunctionDecl.Fits passingMethod := ⟨location, by decide⟩
  have file : passingFile.Fits := {
    functions := List.forall_mem_nil _
    classes := List.forall_mem_singleton.mpr
      ⟨location, List.forall_mem_singleton.mpr method, List.forall_mem_nil _, nofun⟩
    interfaces := List.forall_mem_nil _
    typeAliases := List.forall_mem_nil _
    bindings := List.forall_mem_nil _
    imports := List.forall_mem_nil _
    exports := List.forall_mem_singleton.mpr location
    errors := List.forall_mem_nil _ }
  have call : plainCall.Fits := by constructor <;> decide
  obtain ⟨members, same, distinct⟩ : ∃ members, plainCall.toJson = object members ∧
      ((members ++ [("receiver", null)]).map (·.1)).Nodup := ⟨_, rfl, by decide⟩
  have written : Written plainCall.toJson (object (members ++ [("receiver", null)])) :=
    same ▸ .extended distinct
  obtain ⟨files, calls, _⟩ := written_values_are_read_back
  exact ⟨file, call, members, same, written, files passingFile file _ (.same _),
    calls plainCall call _ written⟩

end Outline

end CodeEntities
