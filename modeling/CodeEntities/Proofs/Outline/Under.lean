import CodeEntities.Outline.Extract

namespace CodeEntities

namespace Options

variable (o : Options)

def bodyOf (text : String) : String :=
  if o.includeBodies then
    match o.maxBodyBytes with
    | some limit => Text.truncate limit text
    | none => text
  else ""

def docOf (found : Option String) : Option String := if o.docComments then found else none

def complexityOf (count : Nat) : Nat := if o.complexity then count else 1

theorem docOf_none : o.docOf none = none := by
  simp [docOf]

theorem docOf_or (a b : Option String) : o.docOf (a.or b) = (o.docOf a).or (o.docOf b) := by
  unfold docOf
  split <;> rfl

end Options

-- A declaration as it is seen under options: only what the options govern changes.

def FunctionDecl.under (o : Options) (f : FunctionDecl) : FunctionDecl :=
  { f with
    body := o.bodyOf f.body
    docComment := o.docOf f.docComment
    complexity := o.complexityOf f.complexity }

def MethodDecl.under (o : Options) (m : MethodDecl) : MethodDecl :=
  { m with function := m.function.under o }

def PropertyDecl.under (o : Options) (p : PropertyDecl) : PropertyDecl :=
  { p with docComment := o.docOf p.docComment }

def TypeAliasDecl.under (o : Options) (a : TypeAliasDecl) : TypeAliasDecl :=
  { a with docComment := o.docOf a.docComment }

def VariableDecl.under (o : Options) (v : VariableDecl) : VariableDecl :=
  { v with docComment := o.docOf v.docComment }

def ClassDecl.membersUnder (o : Options) (c : ClassDecl) : ClassDecl :=
  { c with
    methods := c.methods.map (·.under o)
    properties := c.properties.map (·.under o)
    constructor := c.constructor.map (·.under o) }

def ClassDecl.under (o : Options) (c : ClassDecl) : ClassDecl :=
  { c.membersUnder o with docComment := o.docOf c.docComment }

def InterfaceDecl.membersUnder (o : Options) (i : InterfaceDecl) : InterfaceDecl :=
  { i with
    methods := i.methods.map (·.under o)
    properties := i.properties.map (·.under o) }

def InterfaceDecl.under (o : Options) (i : InterfaceDecl) : InterfaceDecl :=
  { i.membersUnder o with docComment := o.docOf i.docComment }

def Members.under (o : Options) (m : Members) : Members where
  methods := m.methods.map (·.under o)
  properties := m.properties.map (·.under o)
  constructor := m.constructor.map (·.under o)

namespace Members

variable {o : Options} {m : Members}

theorem under_empty : ({} : Members).under o = {} := rfl

theorem under_addMethod (method : MethodDecl) :
    (m.under o).addMethod (method.under o) = (m.addMethod method).under o := by
  simp [under, addMethod]

theorem under_addProperties (properties : List PropertyDecl) :
    (m.under o).addProperties (properties.map (·.under o)) =
      (m.addProperties properties).under o := by
  simp [under, addProperties]

theorem under_addConstructor (method : MethodDecl) :
    (m.under o).addConstructor (method.under o) = (m.addConstructor method).under o := by
  unfold addConstructor
  cases slot : m.constructor with
  | none => simp [under, slot]
  | some first => simp [under, slot, addMethod]

theorem foldl_under {α : Type} {add full : Members → α → Members}
    (each : ∀ m a, add (m.under o) a = (full m a).under o) (l : List α) :
    l.foldl add {} = (l.foldl full {}).under o := by
  rw [← List.foldl_hom (Members.under o) each, under_empty]

end Members

-- Readings of single nodes go over to lists of nodes.

variable {α β : Type} {seen : β → β}

theorem filterMap_under {read full : α → Option β} (each : ∀ a, read a = (full a).map seen)
    (l : List α) : l.filterMap read = (l.filterMap full).map seen := by
  rw [List.map_filterMap, funext each]

theorem flatMap_under {read full : α → List β} (each : ∀ a, read a = (full a).map seen)
    (l : List α) : l.flatMap read = (l.flatMap full).map seen := by
  rw [List.map_flatMap, funext each]

theorem foldl_under {add full : List β → α → List β}
    (each : ∀ found a, add (found.map seen) a = (full found a).map seen) (l : List α) :
    l.foldl add [] = (l.foldl full []).map seen := by
  rw [← List.foldl_hom (List.map seen) each, List.map_nil]

namespace Context

def full (cx : Context) : Context := { cx with options := {} }

variable (cx : Context) (n : Node) (name : String)

-- What an extraction reads besides its options stays the same.

@[simp]
theorem text_full : cx.full.text = cx.text := rfl

@[simp]
theorem trimmed_full : cx.full.trimmed = cx.trimmed := rfl

@[simp]
theorem fieldText_full : cx.full.fieldText? = cx.fieldText? := rfl

@[simp]
theorem location_full : cx.full.location = cx.location := rfl

@[simp]
theorem name_full : cx.full.name? = cx.name? := rfl

@[simp]
theorem modifiers_full : cx.full.modifiers = cx.modifiers := rfl

@[simp]
theorem parameter_full : cx.full.parameter = cx.parameter := rfl

@[simp]
theorem typeParameters_full : cx.full.typeParameters = cx.typeParameters := rfl

@[simp]
theorem afterEquals_full : cx.full.afterEquals? = cx.afterEquals? := rfl

@[simp]
theorem parametersFrom_full (nodes : List Node) :
    cx.full.parametersFrom nodes = cx.parametersFrom nodes := by
  fun_induction cx.parametersFrom nodes with
  | case1 => rfl
  | case2 c marked type name rest ih =>
    rw [parametersFrom, if_pos marked, ih]
    rfl
  | case3 c rest marked short =>
    unfold parametersFrom
    rw [if_pos marked]
    cases rest with
    | nil => rfl
    | cons type rest =>
      cases rest with
      | nil => rfl
      | cons name rest => exact absurd rfl (short type name rest)
  | case4 c rest plain shown ih =>
    rw [parametersFrom.eq_def]
    simp only
    rw [if_neg plain, if_pos shown, ih, parameter_full]
  | case5 c rest plain hidden ih =>
    rw [parametersFrom.eq_def]
    simp only
    rw [if_neg plain, if_neg hidden, ih]

@[simp]
theorem parameters_full : cx.full.parameters = cx.parameters := by
  funext list
  exact parametersFrom_full cx list.children

@[simp]
theorem parametersOf_full : cx.full.parametersOf = cx.parametersOf := by
  funext n
  simp [parametersOf]

@[simp]
theorem callable_full : cx.full.callable = cx.callable := by
  funext n
  simp [callable]

-- What the options govern is the full text, doc comment or count seen under them.

theorem doc_under : cx.doc n = cx.options.docOf (cx.full.doc n) := rfl

theorem function_doc (c : Callable) :
    (cx.function n name c).docComment =
      cx.options.docOf (cx.full.function n name c).docComment := by
  have found : (cx.full.function n name c).docComment = c.doc.or (cx.full.doc n) := rfl
  rw [found, Options.docOf_or, ← doc_under]
  cases shown : cx.options.docComments <;> simp [function, Options.docOf, doc, shown]

theorem function_under (c : Callable) :
    cx.function n name c = (cx.full.function n name c).under cx.options := by
  unfold FunctionDecl.under
  rw [← function_doc]
  rfl

theorem function_docOf (params : List Parameter) (returnType : Option String)
    (typeParams : List String) (modifiers : Modifiers) (doc : Option String) :
    cx.function n name ⟨params, returnType, typeParams, modifiers, cx.options.docOf doc⟩ =
      cx.function n name ⟨params, returnType, typeParams, modifiers, doc⟩ := by
  cases shown : cx.options.docComments <;> simp [function, Options.docOf, shown, Callable.signature]

theorem function_ownDoc (params : List Parameter) (returnType : Option String)
    (typeParams : List String) (modifiers : Modifiers) {seen doc : Option String}
    (same : seen = cx.options.docOf doc) :
    cx.function n name ⟨params, returnType, typeParams, modifiers, seen⟩ =
      (cx.full.function n name ⟨params, returnType, typeParams, modifiers, doc⟩).under
        cx.options := by
  rw [same, function_docOf, function_under]

theorem bind_doc_under (found : Option Node) :
    found.bind cx.doc = cx.options.docOf (found.bind cx.full.doc) := by
  cases found with
  | none => exact (Options.docOf_none _).symm
  | some n => rfl

theorem method_under (c : Callable) (visibility : Visibility) :
    MethodDecl.ofFunction (cx.function n name c) visibility =
      (MethodDecl.ofFunction (cx.full.function n name c) visibility).under cx.options :=
  congrArg (MethodDecl.ofFunction · visibility) (function_under cx n name c)

theorem property_under (type : Option String) (default : Visibility) :
    cx.property n name type default = (cx.full.property n name type default).under cx.options := rfl

end Context

end CodeEntities
