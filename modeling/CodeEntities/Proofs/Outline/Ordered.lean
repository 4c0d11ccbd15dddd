import CodeEntities.Proofs.Outline.Declared
import CodeEntities.Proofs.Tree.ModuleLevel
import Mathlib.Data.List.Pairwise

namespace CodeEntities

def Location.opening (l : Location) : Text.Position := ⟨l.startLine, l.startColumn⟩

variable {α σ : Type}

def InOrder (place : α → Location) (entries : List α) : Prop :=
  entries.Pairwise fun a b => (place a).opening ≤ (place b).opening

instance (place : α → Location) (entries : List α) : Decidable (InOrder place entries) :=
  inferInstanceAs (Decidable (entries.Pairwise fun a b => (place a).opening ≤ (place b).opening))

-- What is read off sites, and tells its site, has its sites in their order.
theorem sites_sublist {read : σ → Option α} {site : α → σ}
    (own : ∀ {s a}, read s = some a → site a = s) (sites : List σ) :
    ((sites.filterMap read).map site).Sublist sites := by
  induction sites with
  | nil => exact List.nil_sublist _
  | cons s rest ih =>
    cases found : read s with
    | none =>
      rw [List.filterMap_cons_none found]
      exact ih.cons s
    | some a =>
      rw [List.filterMap_cons_some found, List.map_cons, own found]
      exact ih.cons_cons s

namespace Context

variable (cx : Context) {n m : Node}

theorem opening_mono (inOrder : n.label.start ≤ m.label.start) :
    (cx.location n).opening ≤ (cx.location m).opening := by
  have positions := Text.Position.atOffset_mono cx.source inOrder
  rw [Text.Position.le_def] at positions ⊢
  simp only [Location.opening, location, Node.startPosition]
  omega

theorem DeclaredBy.opening_le {cx : Context} {root k : Node} {nodes : List Node}
    {f : FunctionDecl} (declared : cx.DeclaredBy nodes f) (placed : root.WellPlaced)
    (inside : (nodes ++ [k]).Sublist root.descendants) :
    f.location.opening ≤ (cx.location k).opening := by
  obtain ⟨first, more, listed, whole, around, _, place, _⟩ := declared
  have starts := placed.preorder_starts.sublist (inside.trans (Node.descendants_sublist root))
  have firstSeen := listed.subset (List.mem_cons_self ..)
  have wholeStart := around.start_le placed
    (inside.subset (List.mem_append_left [k] firstSeen))
  have firstStart := (List.pairwise_append.mp starts).2.2 first firstSeen k
    (List.mem_singleton_self k)
  rw [place]
  exact cx.opening_mono (Nat.le_trans wholeStart firstStart)

-- Entries that start where their sites do are in the order of the sites, also when a site
-- gives several of them.

variable {sites : List σ} (anchor : σ → Node) {place : α → Location}

theorem inOrder_map {build : σ → α}
    (starts : sites.Pairwise fun s t => (anchor s).label.start ≤ (anchor t).label.start)
    (each : ∀ s ∈ sites, (place (build s)).opening = (cx.location (anchor s)).opening) :
    InOrder place (sites.map build) := by
  unfold InOrder
  rw [List.pairwise_map]
  refine starts.imp_of_mem fun first second inOrder => ?_
  rw [each _ first, each _ second]
  exact cx.opening_mono inOrder

theorem inOrder_flatMap {read : σ → List α}
    (starts : sites.Pairwise fun s t => (anchor s).label.start ≤ (anchor t).label.start)
    (each : ∀ s ∈ sites, ∀ a ∈ read s, (place a).opening = (cx.location (anchor s)).opening) :
    InOrder place (sites.flatMap read) := by
  unfold InOrder
  rw [List.pairwise_flatMap]
  constructor
  · intro s site
    refine List.pairwise_of_forall_mem_list fun a first b second => ?_
    rw [each s site a first, each s site b second]
    exact cx.opening_mono (Nat.le_refl _)
  · refine starts.imp_of_mem fun {s t} first second inOrder a left b right => ?_
    rw [each s first a left, each t second b right]
    exact cx.opening_mono inOrder

theorem inOrder_filterMap {read : σ → Option α}
    (starts : sites.Pairwise fun s t => (anchor s).label.start ≤ (anchor t).label.start)
    (each : ∀ s ∈ sites, ∀ a, read s = some a →
      (place a).opening = (cx.location (anchor s)).opening) :
    InOrder place (sites.filterMap read) := by
  unfold InOrder
  rw [List.pairwise_filterMap]
  refine starts.imp_of_mem fun {s t} first second inOrder a left b right => ?_
  rw [each s first a left, each t second b right]
  exact cx.opening_mono inOrder

end Context

end CodeEntities
