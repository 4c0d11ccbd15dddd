import CodeEntities.Proofs.Text.Position
import CodeEntities.Proofs.Tree.Descent
import CodeEntities.Outline.Basic
import CodeEntities.Rules.Members

namespace CodeEntities

variable {F G : FunctionDecl → Prop} {P Q : Location → Prop}

-- A property of every function among a type's members, and one of every other location.

structure Members.Located (F : FunctionDecl → Prop) (P : Location → Prop) (m : Members) : Prop where
  methods : ∀ x ∈ m.methods, F x.function
  properties : ∀ x ∈ m.properties, P x.location
  constructor : ∀ x ∈ m.constructor, F x.function

structure ClassDecl.Located (F : FunctionDecl → Prop) (P : Location → Prop) (c : ClassDecl) :
    Prop where
  place : P c.location
  members : Members.Located F P ⟨c.methods, c.properties, c.constructor⟩

structure InterfaceDecl.Located (F : FunctionDecl → Prop) (P : Location → Prop)
    (i : InterfaceDecl) : Prop where
  place : P i.location
  members : Members.Located F P ⟨i.methods, i.properties, none⟩

namespace Members

variable {m : Members} {x : MethodDecl}

theorem empty_located : Located F P {} where
  methods := by simp
  properties := by simp
  constructor := by simp

theorem Located.addMethod (located : m.Located F P) (declared : F x.function) :
    (m.addMethod x).Located F P := by
  refine ⟨?_, located.properties, located.constructor⟩
  intro y member
  rcases List.mem_append.mp member with old | new
  · exact located.methods y old
  · cases List.mem_singleton.mp new
    exact declared

theorem Located.addProperties {properties : List PropertyDecl} (located : m.Located F P)
    (places : ∀ p ∈ properties, P p.location) : (m.addProperties properties).Located F P := by
  refine ⟨located.methods, ?_, located.constructor⟩
  intro p member
  rcases List.mem_append.mp member with old | new
  · exact located.properties p old
  · exact places p new

theorem Located.addConstructor (located : m.Located F P) (declared : F x.function) :
    (m.addConstructor x).Located F P := by
  unfold Members.addConstructor
  split
  · refine ⟨located.methods, located.properties, ?_⟩
    intro y member
    cases member
    exact declared
  · exact located.addMethod declared

theorem foldl_located {α : Type} {l : List α} {add : Members → α → Members}
    (each : ∀ m, ∀ a ∈ l, m.Located F P → (add m a).Located F P) {start : Members}
    (located : start.Located F P) : (l.foldl add start).Located F P :=
  List.foldlRecOn l add located fun m before a member => each m a member before

theorem Located.imp (located : m.Located F P) (functions : ∀ f, F f → G f)
    (places : ∀ l, P l → Q l) : m.Located G Q where
  methods x member := functions _ (located.methods x member)
  properties x member := places _ (located.properties x member)
  constructor x member := functions _ (located.constructor x member)

end Members

theorem ClassDecl.Located.imp {c : ClassDecl} (located : c.Located F P)
    (functions : ∀ f, F f → G f) (places : ∀ l, P l → Q l) : c.Located G Q :=
  ⟨places _ located.place, located.members.imp functions places⟩

theorem ClassDecl.Located.callables {c : ClassDecl} (located : c.Located F P) :
    ∀ m ∈ c.callables, F m.function := by
  intro m member
  rcases List.mem_append.mp member with slot | method
  · exact located.members.constructor m (Option.mem_toList.mp slot)
  · exact located.members.methods m method

theorem InterfaceDecl.Located.imp {i : InterfaceDecl} (located : i.Located F P)
    (functions : ∀ f, F f → G f) (places : ∀ l, P l → Q l) : i.Located G Q :=
  ⟨places _ located.place, located.members.imp functions places⟩

namespace Context

def span (cx : Context) (first last : Node) : Location :=
  { cx.location first with
    endLine := (cx.location last).endLine
    endColumn := (cx.location last).endColumn }

-- A location between two nodes at or below one, the second of which does not start earlier.
def Spanned (cx : Context) (n : Node) (l : Location) : Prop :=
  ∃ first ∈ n.preorder, ∃ last ∈ n.preorder,
    first.label.start ≤ last.label.start ∧ l = cx.span first last

variable {cx : Context} {n m : Node} {l : Location}

theorem spanned_below (below : m ∈ n.preorder) : cx.Spanned n (cx.location m) :=
  ⟨m, below, m, below, Nat.le_refl _, rfl⟩

theorem spanned_self (cx : Context) (n : Node) : cx.Spanned n (cx.location n) :=
  spanned_below (Node.self_mem_preorder n)

theorem location_map {α β : Type} {found : Option β} {build : β → α} {place : α → Location} {a : α}
    (own : ∀ b, place (build b) = l) (read : found.map build = some a) : place a = l := by
  obtain ⟨b, _, rfl⟩ := Option.map_eq_some_iff.mp read
  exact own b

theorem Spanned.up (spanned : cx.Spanned m l) (below : m ∈ n.preorder) : cx.Spanned n l := by
  obtain ⟨first, firstBelow, last, lastBelow, inOrder, same⟩ := spanned
  exact ⟨first, Node.preorder_trans below firstBelow, last, Node.preorder_trans below lastBelow,
    inOrder, same⟩

end Context

end CodeEntities
