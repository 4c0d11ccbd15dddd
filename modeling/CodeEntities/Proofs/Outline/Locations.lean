import CodeEntities.Calls.Attribution
import CodeEntities.Proofs.Outline.Options

namespace CodeEntities

structure Location.InFile (path : String) (feeds : Nat) (l : Location) : Prop where
  file : l.filePath = path
  start : 1 ≤ l.startLine
  forward : l.startLine < l.endLine ∨ l.startLine = l.endLine ∧ l.startColumn ≤ l.endColumn
  stop : l.endLine ≤ 1 + feeds

theorem Location.InFile.lines {path : String} {feeds : Nat} {l : Location}
    (inFile : l.InFile path feeds) : l.startLine ≤ l.endLine := by
  rcases inFile.forward with before | ⟨same, _⟩
  · exact Nat.le_of_lt before
  · exact Nat.le_of_eq same

theorem Context.Spanned.inFile {cx : Context} {n : Node} {l : Location} (placed : n.WellPlaced)
    (spanned : cx.Spanned n l) : l.InFile cx.filePath (cx.source.toList.count '\n') := by
  obtain ⟨first, _, last, below, inOrder, rfl⟩ := spanned
  have offsets : first.label.start ≤ last.label.stop :=
    Nat.le_trans inOrder (placed.below below).encloses.forward
  have positions : first.startPosition cx.source ≤ last.endPosition cx.source :=
    Text.Position.atOffset_mono cx.source offsets
  have rows : (last.endPosition cx.source).row ≤ cx.source.toList.count '\n' :=
    Text.Position.atOffset_row_le cx.source _
  rw [Text.Position.le_def] at positions
  refine ⟨rfl, Nat.le_add_left 1 _, ?_, ?_⟩
  · simp only [span, location]
    omega
  · simp only [span, location]
    omega

namespace Outline

def locations (u : Outline) : List Location :=
  u.callables.map (·.location) ++ u.properties.map (·.location) ++
    u.classes.map (·.location) ++ u.interfaces.map (·.location) ++
    u.typeAliases.map (·.location) ++ u.bindings.map (·.location) ++
    u.imports.map (·.location) ++ u.exports.map (·.location) ++ u.errors.map (·.location)

structure Located (P : Location → Prop) (u : Outline) : Prop where
  functions : ∀ f ∈ u.functions, P f.location
  classes : ∀ c ∈ u.classes, c.Located (fun f => P f.location) P
  interfaces : ∀ i ∈ u.interfaces, i.Located (fun f => P f.location) P
  typeAliases : ∀ a ∈ u.typeAliases, P a.location
  bindings : ∀ v ∈ u.bindings, P v.location
  imports : ∀ i ∈ u.imports, P i.location
  exports : ∀ e ∈ u.exports, P e.location
  errors : ∀ e ∈ u.errors, P e.location

variable {cx : Context} {root : Node} {u : Outline} {P : Location → Prop}

theorem faults_sublist (root : Node) : (faults root).Sublist root.preorder := by
  unfold faults
  split
  · exact Node.collect_sublist _ root
  · exact List.nil_sublist _

theorem fault_below {n : Node} (member : n ∈ faults root) : n ∈ root.preorder :=
  (faults_sublist root).subset member

theorem extract_located (placed : root.WellPlaced) :
    (extract cx root).Located (cx.Spanned root) := by
  have rules := Rules.of_locates cx.language
  have sites := Rules.of_separates cx.language
  have homed : ∀ f, cx.Homed ((Rules.Sites.of cx.language).homes cx root) f →
      cx.Spanned root f.location := by
    rintro f ⟨home, site, declared⟩
    exact (declared.placed (Node.descendant_sublist (sites.homes home site).1)) placed
  refine ⟨fun f member => (rules.functions f member).placed sites.inOrder placed,
    fun c member => (rules.classes c member).imp homed fun _ spanned => spanned placed,
    fun i member => (rules.interfaces i member).imp homed fun _ spanned => spanned placed,
    rules.typeAliases placed, rules.bindings placed, rules.imports placed, rules.exports placed,
    ?_⟩
  intro e member
  obtain ⟨n, found, rfl⟩ := List.mem_map.mp member
  exact Context.spanned_below (fault_below found)

theorem Located.callables (located : u.Located P) : ∀ f ∈ u.callables, P f.location := by
  refine List.forall_mem_append.mpr ⟨List.forall_mem_append.mpr ⟨located.functions, ?_⟩, ?_⟩
  · intro f member
    obtain ⟨c, declared, read⟩ := List.mem_flatMap.mp member
    obtain ⟨m, own, rfl⟩ := List.mem_map.mp read
    have members := (located.classes c declared).members
    rcases List.mem_append.mp own with slot | method
    · exact members.constructor m (Option.mem_toList.mp slot)
    · exact members.methods m method
  · intro f member
    obtain ⟨i, declared, read⟩ := List.mem_flatMap.mp member
    obtain ⟨m, own, rfl⟩ := List.mem_map.mp read
    exact (located.interfaces i declared).members.methods m own

theorem Located.properties (located : u.Located P) : ∀ p ∈ u.properties, P p.location := by
  refine List.forall_mem_append.mpr ⟨?_, ?_⟩
  · intro p member
    obtain ⟨c, declared, own⟩ := List.mem_flatMap.mp member
    exact (located.classes c declared).members.properties p own
  · intro p member
    obtain ⟨i, declared, own⟩ := List.mem_flatMap.mp member
    exact (located.interfaces i declared).members.properties p own

theorem Located.locations (located : u.Located P) : ∀ l ∈ u.locations, P l := by
  unfold Outline.locations
  simp only [List.forall_mem_append, List.forall_mem_map]
  exact ⟨⟨⟨⟨⟨⟨⟨⟨located.callables, located.properties⟩,
    fun c declared => (located.classes c declared).place⟩,
    fun i declared => (located.interfaces i declared).place⟩,
    located.typeAliases⟩, located.bindings⟩, located.imports⟩, located.exports⟩, located.errors⟩

theorem Located.spans (located : u.Located P) : ∀ s ∈ u.spans, P s.location := by
  refine List.forall_mem_append.mpr ⟨List.forall_mem_map.mpr located.functions, ?_⟩
  intro s member
  obtain ⟨c, declared, span⟩ := List.mem_flatMap.mp member
  have own := located.classes c declared
  rcases List.mem_cons.mp span with rfl | span
  · exact own.place
  · obtain ⟨m, listed, rfl⟩ := List.mem_map.mp span
    rcases List.mem_append.mp listed with method | slot
    · exact own.members.methods m method
    · exact own.members.constructor m (Option.mem_toList.mp slot)

theorem locations_in_file (cx : Context) (root : Node) (placed : root.WellPlaced) :
    (∀ l ∈ (extract cx root).locations,
      l.InFile cx.filePath (cx.source.toList.count '\n')) ∧
      ∀ s ∈ (extract cx root).spans,
        1 ≤ s.location.startLine ∧ s.location.startLine + s.extent = s.location.endLine := by
  refine ⟨fun l member => ((extract_located placed).locations l member).inFile placed, ?_⟩
  intro s member
  have inFile := ((extract_located placed).spans s member).inFile placed
  exact ⟨inFile.start, Nat.add_sub_cancel' inFile.lines⟩

theorem joined_clauses_in_file :
    clauses.WellPlaced ∧
      (extract clausesContext clauses).locations = [⟨"f.ex", 1, 2, 0, 12⟩] ∧
      Location.InFile "f.ex" 2 ⟨"f.ex", 1, 2, 0, 12⟩ := by
  have placed : clauses.WellPlaced := by decide +kernel
  have found : (extract clausesContext clauses).locations = [⟨"f.ex", 1, 2, 0, 12⟩] := by
    decide +kernel
  refine ⟨placed, found, (locations_in_file clausesContext clauses placed).1 _ ?_⟩
  rw [found]
  exact List.mem_singleton_self _

end Outline

end CodeEntities
