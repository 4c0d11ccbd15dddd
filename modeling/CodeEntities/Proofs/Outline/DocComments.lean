import CodeEntities.Proofs.Outline.Options

namespace CodeEntities

theorem Language.ownDocOf_other {l : Language} (other : l ≠ .elixir) (o : Options) :
    l.ownDocOf o = o.docOf := by
  cases l with
  | elixir => exact absurd rfl other
  | _ => rfl

namespace Elixir

variable {cx : Context} {n root : Node}

def moduledoc? (cx : Context) (n : Node) : Option (Option String) :=
  ((attribute? cx n).filter (·.1 == "moduledoc")).map fun (_, value) => value.bind (docText? cx)

-- The documentation of a module: the last `@moduledoc` of its body holds.
def documentation? (cx : Context) (n : Node) : Option String :=
  ((((doBlock? n).map Node.namedChildren).getD []).filterMap (moduledoc? cx)).getLast?.join

theorem addAttribute_doc (body : Body) (name : String) (value : Option Node) :
    (addAttribute cx body n name value).declared.docComment =
      if name == "moduledoc" then value.bind (docText? cx) else body.declared.docComment := by
  unfold addAttribute
  simp only
  split
  · rfl
  · split_ifs <;> rfl

theorem addStatement_doc (body : Body) :
    (addStatement cx body n).declared.docComment =
      (moduledoc? cx n).getD body.declared.docComment := by
  unfold addStatement moduledoc?
  cases attribute? cx n with
  | some entry =>
    obtain ⟨name, value⟩ := entry
    simp only [addAttribute_doc, Option.filter_some]
    split <;> rfl
  | none =>
    cases target? cx n with
    | none => rfl
    | some name =>
      simp only
      split_ifs <;> rfl

theorem body_doc (start : Body) (nodes : List Node) :
    (nodes.foldl (addStatement cx) start).declared.docComment =
      (nodes.filterMap (moduledoc? cx)).getLast?.getD start.declared.docComment := by
  induction nodes generalizing start with
  | nil => rfl
  | cons n rest ih =>
    rw [List.foldl_cons, ih, addStatement_doc]
    cases said : moduledoc? cx n with
    | none => rw [List.filterMap_cons_none said, Option.getD_none]
    | some doc => rw [List.filterMap_cons_some said, List.getLast?_cons, Option.getD_some,
        Option.getD_some]

theorem module_doc {c : ClassDecl} (found : module? cx n = some c) :
    c.docComment = documentation? cx n := by
  obtain ⟨name, _, rfl⟩ := Option.map_eq_some_iff.mp found
  rw [body_doc, documentation?]
  cases (List.filterMap (moduledoc? cx) _).getLast? with
  | none => rfl
  | some doc => rfl

def containerNodes (cx : Context) (root : Node) : List Node :=
  (((moduleCalls cx root).filter fun (target, _) =>
    target == "defmodule" || target == "defprotocol").map (·.2)).filter fun n =>
      (module? cx n).isSome

theorem container_documented {target : String} {doc : Option String}
    (either : target == "defmodule" || target == "defprotocol") :
    (∃ c ∈ containers cx root target, c.docComment = doc) →
      ∃ n ∈ containerNodes cx root, documentation? cx n = doc := by
  rintro ⟨c, member, rfl⟩
  obtain ⟨⟨name, n⟩, called, found⟩ := List.mem_filterMap.mp member
  obtain ⟨called, same⟩ := List.mem_filter.mp called
  rw [← eq_of_beq same] at either
  refine ⟨n, List.mem_filter.mpr ⟨List.mem_map.mpr ⟨(name, n), ?_, rfl⟩, ?_⟩,
    (module_doc found).symm⟩
  · exact List.mem_filter.mpr ⟨called, either⟩
  · exact Option.isSome_of_eq_some found

theorem mem_containerNodes (member : n ∈ containerNodes cx root) :
    ∃ c, c.docComment = documentation? cx n ∧
      (c ∈ containers cx root "defmodule" ∨ c ∈ containers cx root "defprotocol") := by
  obtain ⟨called, present⟩ := List.mem_filter.mp member
  obtain ⟨c, found⟩ := Option.isSome_iff_exists.mp present
  obtain ⟨⟨name, n⟩, target, rfl⟩ := List.mem_map.mp called
  obtain ⟨called, either⟩ := List.mem_filter.mp target
  have listed : c ∈ containers cx root name :=
    List.mem_filterMap.mpr ⟨(name, n), List.mem_filter.mpr ⟨called, beq_self_eq_true name⟩, found⟩
  refine ⟨c, module_doc found, ?_⟩
  rcases Bool.or_eq_true_iff.mp either with isModule | isProtocol
  · exact .inl (eq_of_beq isModule ▸ listed)
  · exact .inr (eq_of_beq isProtocol ▸ listed)

end Elixir

namespace Outline

theorem typeDocs_elixir {cx : Context} {root : Node} (language : cx.language = .elixir)
    (doc : Option String) :
    doc ∈ (extract cx root).typeDocs ↔
      ∃ n ∈ Elixir.containerNodes cx root, Elixir.documentation? cx n = doc := by
  have classes : (extract cx root).classes = Elixir.containers cx root "defmodule" := by
    simp only [extract, language]
    rfl
  have interfaces : (extract cx root).interfaces = Elixir.interfaces cx root := by
    simp only [extract, language]
    rfl
  unfold typeDocs
  rw [classes, interfaces, Elixir.interfaces, List.map_map, List.mem_append, List.mem_map,
    List.mem_map]
  constructor
  · rintro (isModule | isProtocol)
    · exact Elixir.container_documented rfl isModule
    · exact Elixir.container_documented rfl isProtocol
  · rintro ⟨n, member, rfl⟩
    obtain ⟨c, same, listed⟩ := Elixir.mem_containerNodes member
    exact listed.imp (⟨c, ·, same⟩) (⟨c, ·, same⟩)

-- Without doc comments the documentation of Elixir's modules and protocols is all that stays.
theorem excluded_docs_iff (cx : Context) (root : Node)
    (excluded : cx.options.docComments = false) :
    let u := extract cx root
    ((∀ doc ∈ u.docComments, doc = none) ↔
      (cx.language = .elixir →
        ∀ n ∈ Elixir.containerNodes cx root, Elixir.documentation? cx n = none)) ∧
      ∀ doc ∈ u.otherDocs, doc = none := by
  intro u
  have seen : u = (extract cx.full root).under cx.options := extract_under cx root
  have others : ∀ doc ∈ u.otherDocs, doc = none := by
    intro doc member
    rw [seen, otherDocs_under] at member
    obtain ⟨found, _, rfl⟩ := List.mem_map.mp member
    exact Options.docOf_excluded excluded found
  refine ⟨⟨?_, ?_⟩, others⟩
  · intro undocumented language n member
    exact undocumented _
      (List.mem_append_left _ ((typeDocs_elixir language _).mpr ⟨n, member, rfl⟩))
  · intro undocumented doc member
    rcases List.mem_append.mp member with ofType | other
    · by_cases language : cx.language = .elixir
      · obtain ⟨n, container, rfl⟩ := (typeDocs_elixir language doc).mp ofType
        exact undocumented language n container
      · rw [seen, typeDocs_under] at ofType
        obtain ⟨found, _, rfl⟩ := List.mem_map.mp ofType
        have dropped := Language.ownDocOf_other language cx.options
        exact (congrFun dropped found).trans (Options.docOf_excluded excluded found)
    · exact others doc other

def attributeModule (name : String) : Tree :=
  let stop := 18 + name.utf8ByteSize
  .whole "source" 0 (stop + 9) none [
    .whole "call" 0 (stop + 8) none [
      .whole "identifier" 0 9 (some "target") [],
      .whole "arguments" 10 11 none [.whole "alias" 10 11 none []],
      .whole "do_block" 12 (stop + 8) none [
        .token "do" 12,
        .whole "unary_operator" 17 (stop + 4) none [
          .token "@" 17,
          .whole "call" 18 (stop + 4) (some "operand") [
            .whole "identifier" 18 stop (some "target") [],
            .whole "arguments" (stop + 1) (stop + 4) none [
              .whole "string" (stop + 1) (stop + 4) none [
                .token "\"" (stop + 1),
                .whole "quoted_content" (stop + 2) (stop + 3) none [],
                .token "\"" (stop + 3)]]]],
        .token "end" (stop + 5)]]]

def attributeContext (name : String) : Context where
  source := "defmodule M do\n  @" ++ name ++ " \"D\"\nend\n"
  filePath := "m.ex"
  language := .elixir
  options := { docComments := false }

theorem moduledoc_stays :
    ¬ ∀ (cx : Context) (root : Node), cx.options.docComments = false →
      ∀ doc ∈ (extract cx root).docComments, doc = none := by
  intro dropped
  have left : some "D" ∈ (extract (attributeContext "moduledoc")
      (.root (attributeModule "moduledoc"))).docComments := by
    decide +kernel
  cases dropped (attributeContext "moduledoc") (.root (attributeModule "moduledoc")) rfl _ left

theorem other_attribute_is_dropped :
    (attributeContext "doc").options.docComments = false ∧
      Elixir.containerNodes (attributeContext "doc") (.root (attributeModule "doc")) ≠ [] ∧
      ∀ doc ∈ (extract (attributeContext "doc") (.root (attributeModule "doc"))).docComments,
        doc = none := by
  refine ⟨rfl, ?_, ?_⟩
  · have count : (Elixir.containerNodes (attributeContext "doc")
        (.root (attributeModule "doc"))).length = 1 := by
      decide +kernel
    exact List.ne_nil_of_length_pos (count ▸ Nat.one_pos)
  · refine (excluded_docs_iff _ _ rfl).1.mpr fun _ => ?_
    decide +kernel

end Outline

end CodeEntities
