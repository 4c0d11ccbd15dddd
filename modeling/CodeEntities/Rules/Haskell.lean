import CodeEntities.Rules.Basic
import CodeEntities.Text.Nesting

namespace CodeEntities.Haskell

def exportList? (cx : Context) (root : Node) : Option (List String) := do
  let header ← root.findDescendant? ["header"]
  let list ← header.findDescendant? ["exports"]
  pure <| (list.descendantsOfKind ["variable", "name", "constructor", "qualified"] []).map cx.trimmed

def exportModifiers (exported : Option (List String)) (name : String) : Modifiers :=
  Modifiers.empty.insertIf (exported.all (·.contains name)) .exported

def signatureType? (cx : Context) (n : Node) : Option String :=
  ((n.field? "type").map cx.trimmed).or
    ((Text.cut? (cx.text n) "::").map fun (_, type) => Text.trim type)

def signatureTypes (cx : Context) (n : Node) : List String :=
  ((signatureType? cx n).map Text.arrowTypes).getD []

def signatureNames (cx : Context) (n : Node) : List String :=
  match Text.cut? (cx.text n) "::" with
  | some (names, _) =>
    ((Text.split (· == ',') names).map Text.trim).filter (! ·.isEmpty)
  | none => []

def signatures (root : Node) : List Node :=
  root.moduleLevel ["signature"] NodeKinds.haskell.wrappers

def signatureOf? (cx : Context) (root : Node) (name : String) : Option Node :=
  (signatures root).find? fun s => (signatureNames cx s).contains name

-- The patterns of an equation with the types that the signature gives them. The
-- last type of the signature is never one of a parameter.
def patternParameters (cx : Context) (types : List String) (patterns : List Node) :
    List Parameter :=
  patterns.zipIdx.map fun (p, i) => { name := cx.trimmed p, type := types.dropLast[i]? }

def function (cx : Context) (root : Node) (name : String) (first : Node) (more : List Node) :
    FunctionDecl :=
  let signature := signatureOf? cx root name
  let types := ((signature.map (signatureTypes cx)).getD [])
  let patterns := ((first.field? "patterns").map Node.namedChildren).getD []
  let declared := cx.function first name {
    params := patternParameters cx types patterns
    returnType := if types.length > patterns.length then types.getLast? else none
    modifiers := exportModifiers (exportList? cx root) name
    doc := signature.bind cx.doc }
  let stop := cx.location ((more.getLast?).getD first)
  { declared with
    location :=
      { declared.location with endLine := stop.endLine, endColumn := stop.endColumn }
    complexity :=
      if cx.options.complexity then more.foldl (fun total n => total + cx.complexity n) declared.complexity
      else declared.complexity }

abbrev EquationMap := String → Option (List Node)

namespace EquationMap

def empty : EquationMap := fun _ => none

def insert (m : EquationMap) (name : String) (equations : List Node) : EquationMap :=
  fun other => if other = name then some equations else m other

def erase (m : EquationMap) (name : String) : EquationMap :=
  fun other => if other = name then none else m other

end EquationMap

-- The equations that are read so far. The map knows no order, so the names are
-- also listed as they are first met.
structure EquationTable where
  order : List String := []
  equations : EquationMap := .empty

def EquationTable.add (cx : Context) (t : EquationTable) (n : Node) : EquationTable :=
  match cx.name? n with
  | none => t
  | some name =>
    { order := if (t.equations name).isSome then t.order else t.order ++ [name]
      equations := t.equations.insert name ((t.equations name).getD [] ++ [n]) }

def mergeEquations (cx : Context) (root : Node) : List String → EquationMap → List FunctionDecl
  | [], _ => []
  | name :: names, equations =>
    let others := mergeEquations cx root names (equations.erase name)
    match equations name with
    | some (first :: more) => function cx root name first more :: others
    | _ => others

def functions (cx : Context) (root : Node) : List FunctionDecl :=
  let nodes := root.moduleLevel NodeKinds.haskell.functions NodeKinds.haskell.wrappers
  let table := nodes.foldl (EquationTable.add cx) {}
  mergeEquations cx root table.order table.equations

def recordFields (cx : Context) (field : Node) : List PropertyDecl :=
  let (names, type) := (Text.cut? (cx.text field) "::").getD (cx.text field, "")
  (((Text.split (· == ',') names).map Text.trim).filter (! ·.isEmpty)).map fun name =>
    { cx.property field name none .isPublic with
      type := Text.nonBlank? type
      isReadonly := true }

def constructorValue? (cx : Context) (n : Node) : Option PropertyDecl :=
  (n.findDescendant? ["constructor"]).map fun name =>
    { cx.property n (cx.text name) none .isPublic with isStatic := true, isReadonly := true }

def isNullary (cx : Context) (n : Node) : Bool :=
  (n.findDescendant? ["constructor"]).any fun name => cx.trimmed name == cx.trimmed n

def derived (cx : Context) (n : Node) : List String :=
  match n.findDescendant? ["deriving"] with
  | none => []
  | some clause =>
    let names := Text.dropPrefixes (cx.text clause) "deriving"
    let bare := String.ofList (names.toList.filter fun c => c != '(' && c != ')')
    ((Text.split (· == ',') bare).map fun part =>
      Text.trim (Text.dropPrefixes (Text.dropPrefixes (Text.trim part) "stock ") "anyclass "))
      |>.filter (! ·.isEmpty)

-- A type with one record constructor has the record's fields; any other type
-- has its constructors as constants.
def classOf (cx : Context) (exported : Option (List String)) (n : Node) : Option ClassDecl :=
  (cx.name? n).map fun name =>
    let constructors := n.descendantsOfKind ["data_constructor", "newtype_constructor"] ["deriving"]
    let fields := constructors.flatMap fun c => c.descendantsOfKind ["field"] []
    { name
      kind :=
        if constructors.length > 1 && constructors.all (isNullary cx) then .enumeration else .struct
      implements := derived cx n
      properties :=
        if constructors.length == 1 && !fields.isEmpty then fields.flatMap (recordFields cx)
        else constructors.filterMap (constructorValue? cx)
      location := cx.location n
      modifiers := exportModifiers exported name
      docComment := cx.doc n }

-- A method of a type class. It is abstract unless the class gives a default.
def method (cx : Context) (defaults : List String) (signature : Node) (name : String) : MethodDecl :=
  let types := signatureTypes cx signature
  let params := types.dropLast.zipIdx.map fun (type, i) =>
    { name := "arg" ++ toString i, type := some type : Parameter }
  let f := cx.function signature name { params, returnType := types.getLast? }
  { MethodDecl.ofFunction f .isPublic with isAbstract := !defaults.contains name }

def interfaceOf (cx : Context) (n : Node) : Option InterfaceDecl :=
  (cx.name? n).map fun name =>
    let members := n.descendantsOfKind ["signature", "function", "bind"] []
    let defaults := (members.filter (·.kind != "signature")).filterMap cx.name?
    { name
      typeParams := (((n.field? "patterns").map Node.namedChildren).getD []).map cx.text
      methods := (members.filter (·.kind == "signature")).flatMap fun s =>
        (signatureNames cx s).map (method cx defaults s)
      location := cx.location n
      modifiers := .ofList [.exported]
      docComment := cx.doc n }

def variablesOf (cx : Context) (n : Node) : List VariableDecl :=
  match cx.name? n with
  | none => []
  | some name =>
    let root := (n.ancestors.getLast?).getD n
    let signature := signatureOf? cx root name
    [{ name
       kind := .constant
       type := signature.bind (signatureType? cx)
       initializer := (Text.cut? (cx.text n) "=").bind fun (_, value) => Text.nonBlank? value
       location := cx.location n
       modifiers := (exportModifiers (exportList? cx root) name).insert .const
       docComment := (signature.bind cx.doc).or (cx.doc n) }]

def alias? (words : List String) : Option String :=
  match words.dropWhile (· != "as") with
  | _ :: name :: _ => some name
  | _ => none

def importedNames (list : String) : List String :=
  ((Text.split (· == ',') list).map fun item => Text.trim (Text.before (Text.trim item) "("))
    |>.filter (! ·.isEmpty)

def importsOf (cx : Context) (n : Node) : List ImportDecl :=
  let text := Text.trim (Text.dropPrefixes (cx.trimmed n) "import")
  let (head, list) :=
    match Text.cut? text "(" with
    | some (head, rest) => (head, some (Text.dropEndWhile (· == ')') (Text.trimEnd rest)))
    | none => (text, none)
  let isQualified := (Text.words head).head? == some "qualified"
  let words := (Text.words head).filter fun w => w != "qualified" && w != "safe"
  let isHiding := words.getLast? == some "hiding"
  let words := if isHiding then words.dropLast else words
  match words with
  | [] => []
  | name :: _ =>
    let specifiers : List ImportSpecifier :=
      match list, isHiding with
      | some list, false => (importedNames list).map fun item =>
        { localName := item, imported := item, kind := .named }
      | _, _ =>
        let localName := (alias? words).getD (if isQualified then name else "*")
        [{ localName, imported := "*", kind := .wholeModule }]
    [{ source := name, specifiers, location := cx.location n }]

def rules : Rules where
  kinds := .haskell
  functions := functions
  classes cx root :=
    (root.moduleLevel NodeKinds.haskell.classes NodeKinds.haskell.wrappers).filterMap
      (classOf cx (exportList? cx root))
  interfaceOf := interfaceOf
  variablesOf := variablesOf
  importsOf := importsOf

end CodeEntities.Haskell
