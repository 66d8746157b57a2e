import Mathlib.Tactic

/-!
# Parent pointers: forests, and the recursive query that walks one

`P x p` reads "`x` is a node and its parent pointer is `p`".  A node is `Rooted` when its parent
chain is finite, stays among the nodes and ends in a node without parent.  The first part says
how moving, adding and removing nodes acts on rootedness.  The second part is the recursive
query `WITH RECURSIVE … AND NOT id = ANY(path)`, which lists what lies below a node by
enumerating the simple paths from it.
-/

namespace Tesbo.Reasoning

variable {α : Type*}

/-- The parent chain of the node ends in a root, through nodes. -/
inductive Rooted (P : α → Option α → Prop) : α → Prop where
  | root {x : α} (h : P x none) : Rooted P x
  | child {x y : α} (h : P x (some y)) (hy : Rooted P y) : Rooted P x

/-- Every node is rooted. -/
def Forest (P : α → Option α → Prop) : Prop := ∀ x p, P x p → Rooted P x

/-- `y` is `x` or lies below it. -/
def Below (P : α → Option α → Prop) (x y : α) : Prop :=
  Relation.ReflTransGen (fun a b ↦ P b (some a)) x y

theorem Rooted.mono {P P' : α → Option α → Prop} (h : ∀ x p, P x p → P' x p) {x : α}
    (hx : Rooted P x) : Rooted P' x := by
  induction hx with
  | root hr => exact .root (h _ _ hr)
  | child hc _ ih => exact .child (h _ _ hc) ih

theorem Rooted.node {P : α → Option α → Prop} {x : α} (h : Rooted P x) : ∃ p, P x p := by
  cases h with
  | root hr => exact ⟨none, hr⟩
  | child hc _ => exact ⟨_, hc⟩

/-- With one parent pointer a node, a rooted node is on no cycle. -/
theorem Rooted.acyclic {P : α → Option α → Prop} (hfun : ∀ x p q, P x p → P x q → p = q) {x : α}
    (hx : Rooted P x) : ¬ Relation.TransGen (fun a b ↦ P b (some a)) x x := by
  induction hx with
  | root hr =>
      intro hcycle
      obtain ⟨a, -, ha⟩ := Relation.TransGen.tail'_iff.mp hcycle
      cases hfun _ _ _ hr ha
  | @child x y hc hy ih =>
      intro hcycle
      obtain ⟨a, hxa, ha⟩ := Relation.TransGen.tail'_iff.mp hcycle
      have hay : a = y := Option.some.inj (hfun _ _ _ ha hc)
      subst hay
      -- the cycle through `x` enters `x` from its parent, so the parent is on it too
      exact ih (Relation.TransGen.head' hc hxa)

section Reparent

variable {P P' : α → Option α → Prop} {x : α} {p : Option α}

/-- Moving `x` under `p` keeps the forest when `p` is no node below `x`. -/
theorem Forest.reparent (hforest : Forest P) (hother : ∀ y q, y ≠ x → (P' y q ↔ P y q))
    (hx : ∀ q, P' x q ↔ q = p) (hp : ∀ y, p = some y → (∃ q, P y q) ∧ ¬ Below P x y) :
    Forest P' := by
  -- the new parent's own chain avoids `x`, so it is unchanged
  have havoid : ∀ y, Rooted P y → ¬ Below P x y → Rooted P' y := by
    intro y hy
    induction hy with
    | @root y hr =>
        intro hnb
        have hne : y ≠ x := fun h ↦ hnb (h ▸ .refl)
        exact .root ((hother y none hne).mpr hr)
    | @child y z hc _ ih =>
        intro hnb
        have hne : y ≠ x := fun h ↦ hnb (h ▸ .refl)
        exact .child ((hother y _ hne).mpr hc) (ih fun hz ↦ hnb (hz.tail hc))
  have hself : Rooted P' x := by
    cases hcase : p with
    | none => exact .root ((hx none).mpr hcase.symm)
    | some y =>
        obtain ⟨⟨r, hr⟩, hnb⟩ := hp y hcase
        exact .child ((hx (some y)).mpr hcase.symm) (havoid y (hforest y r hr) hnb)
  -- every other chain either never meets `x` or runs into it
  have hall : ∀ y, Rooted P y → Rooted P' y := by
    intro y hy
    induction hy with
    | @root y hr =>
        by_cases hyx : y = x
        · exact hyx ▸ hself
        · exact .root ((hother y none hyx).mpr hr)
    | @child y z hc _ ih =>
        by_cases hyx : y = x
        · exact hyx ▸ hself
        · exact .child ((hother y _ hyx).mpr hc) ih
  intro y q hq
  by_cases hyx : y = x
  · exact hyx ▸ hself
  · exact hall y (hforest y q ((hother y q hyx).mp hq))

end Reparent

/-- Adding a node under a node, or without parent, keeps the forest. -/
theorem Forest.insert {P P' : α → Option α → Prop} {x : α} {p : Option α} (hforest : Forest P)
    (hP' : ∀ y q, P' y q ↔ P y q ∨ (y = x ∧ q = p)) (hp : ∀ y, p = some y → ∃ q, P y q) :
    Forest P' := by
  have hold : ∀ y, Rooted P y → Rooted P' y := fun y hy ↦
    hy.mono fun z q hz ↦ (hP' z q).mpr (.inl hz)
  intro y q hq
  rcases (hP' y q).mp hq with hq | ⟨rfl, rfl⟩
  · exact hold y (hforest y q hq)
  · cases hcase : q with
    | none => exact .root (hcase ▸ hq)
    | some z =>
        obtain ⟨r, hr⟩ := hp z hcase
        exact .child (hcase ▸ hq) (hold z (hforest z r hr))

/-- Removing a set of nodes closed under going down keeps the forest. -/
theorem Forest.remove {P P' : α → Option α → Prop} {D : α → Prop} (hforest : Forest P)
    (hP' : ∀ y q, P' y q ↔ P y q ∧ ¬ D y) (hclosed : ∀ y z, P z (some y) → D y → D z) :
    Forest P' := by
  have hkeep : ∀ y, Rooted P y → ¬ D y → Rooted P' y := by
    intro y hy
    induction hy with
    | root hr => exact fun hD ↦ .root ((hP' _ _).mpr ⟨hr, hD⟩)
    | child hc _ ih =>
        exact fun hD ↦ .child ((hP' _ _).mpr ⟨hc, hD⟩) (ih fun hDz ↦ hD (hclosed _ _ hc hDz))
  intro y q hq
  obtain ⟨hy, hD⟩ := (hP' y q).mp hq
  exact hkeep y (hforest y q hy) hD

/-! ## The recursive query -/

section Walk

variable (children : α → List α)

/-- A path from `r`, end first, that visits no node twice. -/
inductive SimplePath (r : α) : List α → Prop where
  | start : SimplePath r [r]
  | extend {x y : α} {path : List α} (h : SimplePath r (x :: path)) (hy : y ∈ children x)
      (hnew : y ∉ x :: path) : SimplePath r (y :: x :: path)

variable {children}

theorem SimplePath.nodup {r : α} {path : List α} (h : SimplePath children r path) :
    path.Nodup := by
  induction h with
  | start => exact List.nodup_singleton r
  | extend _ _ hnew ih => exact List.nodup_cons.mpr ⟨hnew, ih⟩

theorem SimplePath.subset {r : α} {path nodes : List α} (h : SimplePath children r path)
    (hr : r ∈ nodes) (hnodes : ∀ x y, y ∈ children x → y ∈ nodes) : path ⊆ nodes := by
  induction h with
  | start => exact fun a ha ↦ List.mem_singleton.mp ha ▸ hr
  | extend _ hy _ ih => exact List.cons_subset.mpr ⟨hnodes _ _ hy, ih⟩

/-- A path that visits `y` has a prefix that ends there. -/
theorem SimplePath.cut {r y : α} {path : List α} (h : SimplePath children r path) (hy : y ∈ path) :
    ∃ cut, SimplePath children r (y :: cut) := by
  induction h with
  | start =>
      rw [List.mem_singleton] at hy
      exact ⟨[], hy ▸ .start⟩
  | @extend x z path h hz hnew ih =>
      rcases List.mem_cons.mp hy with rfl | hy
      · exact ⟨x :: path, .extend h hz hnew⟩
      · exact ih hy

theorem SimplePath.reachable {r x : α} {path : List α} (h : SimplePath children r (x :: path)) :
    Relation.ReflTransGen (fun a b ↦ b ∈ children a) r x := by
  generalize hp : x :: path = p at h
  induction h generalizing x path with
  | start =>
      obtain ⟨rfl, -⟩ := List.cons_eq_cons.mp hp
      exact .refl
  | extend h hy _ ih =>
      obtain ⟨rfl, -⟩ := List.cons_eq_cons.mp hp
      exact (ih rfl).tail hy

variable [DecidableEq α] (children)

/-- One pass of the recursive term over the working table: each path is extended by every child
of its end that it does not contain.  A path is written end first. -/
def extendPaths (paths : List (List α)) : List (List α) :=
  paths.flatMap fun
    | [] => []
    | x :: path => ((children x).filter (· ∉ x :: path)).map (· :: x :: path)

/-- The working tables of `n` passes, one after the other. -/
def walkPaths : ℕ → List (List α) → List (List α)
  | 0, paths => paths
  | n + 1, paths => paths ++ walkPaths n (extendPaths children paths)

/-- The ids the query returns: the ends of the paths from `start`. -/
def walk (n : ℕ) (start : List α) : List α :=
  (walkPaths children n (start.map ([·]))).filterMap List.head?

variable {children}

/-- What is reachable is reachable without visiting a node twice. -/
theorem exists_simplePath {r x : α} (h : Relation.ReflTransGen (fun a b ↦ b ∈ children a) r x) :
    ∃ path, SimplePath children r (x :: path) := by
  induction h with
  | refl => exact ⟨[], .start⟩
  | @tail x y _ hxy ih =>
      obtain ⟨path, hpath⟩ := ih
      by_cases hy : y ∈ x :: path
      · exact hpath.cut hy
      · exact ⟨x :: path, .extend hpath hxy hy⟩

theorem mem_extendPaths {paths : List (List α)} {path : List α} :
    path ∈ extendPaths children paths ↔
      ∃ x tail y, x :: tail ∈ paths ∧ y ∈ children x ∧ y ∉ x :: tail ∧ path = y :: x :: tail := by
  unfold extendPaths
  rw [List.mem_flatMap]
  constructor
  · rintro ⟨p, hp, hmem⟩
    cases p with
    | nil => simp at hmem
    | cons x tail =>
        simp only [List.mem_map, List.mem_filter, decide_eq_true_eq] at hmem
        obtain ⟨y, ⟨hy, hnew⟩, rfl⟩ := hmem
        exact ⟨x, tail, y, hp, hy, hnew, rfl⟩
  · rintro ⟨x, tail, y, hp, hy, hnew, rfl⟩
    refine ⟨x :: tail, hp, ?_⟩
    simp only [List.mem_map, List.mem_filter, decide_eq_true_eq]
    exact ⟨y, ⟨hy, hnew⟩, rfl⟩

/-- Every path the passes produce extends a simple path by a simple path. -/
theorem simplePath_of_mem_walkPaths {r : α} {n : ℕ} {paths : List (List α)}
    (hpaths : ∀ p ∈ paths, SimplePath children r p) {path : List α}
    (h : path ∈ walkPaths children n paths) : SimplePath children r path := by
  induction n generalizing paths with
  | zero => exact hpaths path h
  | succ n ih =>
      rcases List.mem_append.mp h with h | h
      · exact hpaths path h
      · refine ih (fun p hp ↦ ?_) h
        obtain ⟨x, tail, y, hmem, hy, hnew, rfl⟩ := mem_extendPaths.mp hp
        exact .extend (hpaths _ hmem) hy hnew

/-- The working table after `j` passes is part of what `n ≥ j` passes produce. -/
theorem iterate_subset_walkPaths {j n : ℕ} (hjn : j ≤ n) (paths : List (List α)) :
    (extendPaths children)^[j] paths ⊆ walkPaths children n paths := by
  induction n generalizing j paths with
  | zero =>
      rw [Nat.le_zero.mp hjn]
      exact List.Subset.refl _
  | succ n ih =>
      cases j with
      | zero => exact List.subset_append_left _ _
      | succ j =>
          rw [Function.iterate_succ_apply]
          exact List.subset_append_of_subset_right _ (ih (Nat.le_of_succ_le_succ hjn) _)

/-- A simple path of `j` steps is in the working table after `j` passes. -/
theorem SimplePath.mem_iterate {r : α} {path : List α} (h : SimplePath children r path) :
    path ∈ (extendPaths children)^[path.length - 1] [[r]] := by
  induction h with
  | start => exact List.mem_singleton.mpr rfl
  | @extend x y path h hy hnew ih =>
      have hlen : (y :: x :: path).length - 1 = (x :: path).length - 1 + 1 := by simp
      rw [hlen, Function.iterate_succ_apply']
      exact mem_extendPaths.mpr ⟨x, path, y, ih, hy, hnew, rfl⟩

/-- With as many passes as there are nodes, the query returns exactly the nodes below its start. -/
theorem mem_walk_iff {r x : α} {nodes : List α} (hr : r ∈ nodes)
    (hnodes : ∀ x y, y ∈ children x → y ∈ nodes) :
    x ∈ walk children nodes.length [r] ↔
      Relation.ReflTransGen (fun a b ↦ b ∈ children a) r x := by
  unfold walk
  rw [List.mem_filterMap]
  constructor
  · rintro ⟨path, hmem, hhead⟩
    cases path with
    | nil => cases hhead
    | cons y path =>
        obtain rfl : y = x := Option.some.inj hhead
        refine (simplePath_of_mem_walkPaths (fun p hp ↦ ?_) hmem).reachable
        rw [List.map_singleton, List.mem_singleton] at hp
        exact hp ▸ .start
  · intro hreach
    obtain ⟨path, hpath⟩ := exists_simplePath hreach
    refine ⟨x :: path, ?_, rfl⟩
    -- a path without repetition has at most as many nodes as there are
    have hlen : (x :: path).length ≤ nodes.length :=
      (List.subperm_of_subset hpath.nodup (hpath.subset hr hnodes)).length_le
    exact iterate_subset_walkPaths (by omega) _ hpath.mem_iterate

end Walk

end Tesbo.Reasoning
