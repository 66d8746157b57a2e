import Tesbo.Reasoning.Service

/-!
# Bounded concurrency

A few workers take jobs off one queue.  Between two of its updates of the shared state a job waits
for an answer, and the other workers go on; which one does is up to `pick`.  The first job that
throws ends the whole, as `Promise.all` does.
-/

namespace Tesbo.Reasoning

/-- What is left of a job: its updates of the shared state, in order, and how it ends. -/
inductive Job (ε κ : Type) where
  | done
  | throw (e : ε)
  | step (w : κ) (next : Job ε κ)
deriving DecidableEq, Repr

variable {ε κ σ M : Type}

namespace Job

/-- The job on its own. -/
def exec (perform : κ → σ → σ) : Job ε κ → Service ε σ Unit
  | done => pure ()
  | throw e => Service.fail e
  | step w next => do
      Service.write (perform w)
      next.exec perform

def Throws : Job ε κ → Prop
  | done => False
  | throw _ => True
  | step _ next => next.Throws

/-- What its updates add up to. -/
def total [Zero M] [Add M] (weight : κ → M) : Job ε κ → M
  | done => 0
  | throw _ => 0
  | step w next => weight w + next.total weight

def size : Job ε κ → ℕ
  | done => 1
  | throw _ => 1
  | step _ next => next.size + 1

end Job

/-- The jobs no worker has taken yet, and those the workers are at, who look for the next one when
theirs is done. -/
structure Pool (ε σ κ : Type) where
  waiting : List (Job ε κ)
  working : List (Job ε κ)
  shared : σ

namespace Pool

variable {perform : κ → σ → σ} {p p' : Pool ε σ κ} {i n : ℕ}

/-- The next step of a worker: one that finds the queue empty leaves. -/
def next (perform : κ → σ → σ) (i : ℕ) (p : Pool ε σ κ) : Except ε (Pool ε σ κ) :=
  let others := p.working.eraseIdx i
  match p.working[i]? with
  | none => .ok p
  | some .done =>
      match p.waiting with
      | [] => .ok { p with working := others }
      | job :: waiting => .ok { p with working := job :: others, waiting := waiting }
  | some (.throw e) => .error e
  | some (.step w job) => .ok { p with working := job :: others, shared := perform w p.shared }

def run (perform : κ → σ → σ) (pick : ℕ → ℕ) : ℕ → Pool ε σ κ → Except ε Unit × σ
  | 0, p => (.ok (), p.shared)
  | n + 1, p =>
      if p.working = [] then (.ok (), p.shared)
      else
        match p.next perform (pick n % p.working.length) with
        | .ok p' => p'.run perform pick n
        | .error e => (.error e, p.shared)

/-- The steps that are left. -/
def size (p : Pool ε σ κ) : ℕ :=
  (p.working.map Job.size).sum + (p.waiting.map Job.size).sum

/-- A worker is there as long as a job is. -/
def Manned (p : Pool ε σ κ) : Prop := p.working = [] → p.waiting = []

/-- The job of a worker is one of those at work, in some order. -/
theorem working_perm {job : Job ε κ} (h : p.working[i]? = some job) :
    p.working.Perm (job :: p.working.eraseIdx i) := by
  obtain ⟨hi, rfl⟩ := List.getElem?_eq_some_iff.mp h
  exact (List.getElem_cons_eraseIdx_perm hi).symm

theorem sum_working [AddCommMonoid M] (f : Job ε κ → M) {job : Job ε κ}
    (h : p.working[i]? = some job) :
    (p.working.map f).sum = f job + ((p.working.eraseIdx i).map f).sum :=
  ((working_perm h).map f).sum_eq

theorem size_next (h : p.next perform i = .ok p') (hi : i < p.working.length) :
    p'.size < p.size := by
  unfold next at h
  have hjob := List.getElem?_eq_getElem hi
  have hsum := sum_working Job.size hjob
  rw [hjob] at h
  cases hcase : p.working[i] with
  | done =>
      rw [hcase] at h hsum
      cases hwaiting : p.waiting with
      | nil =>
          rw [hwaiting] at h
          obtain rfl := Except.ok.inj h
          simp only [size, hsum, hwaiting, Job.size]
          omega
      | cons job waiting =>
          rw [hwaiting] at h
          obtain rfl := Except.ok.inj h
          simp only [size, hsum, hwaiting, Job.size, List.map_cons, List.sum_cons]
          omega
  | throw e =>
      rw [hcase] at h
      cases h
  | step w job =>
      rw [hcase] at h hsum
      obtain rfl := Except.ok.inj h
      simp only [size, hsum, Job.size, List.map_cons, List.sum_cons]
      omega

theorem manned_next (h : p.next perform i = .ok p') (hp : p.Manned) : p'.Manned := by
  unfold next at h
  dsimp only at h
  split at h
  · obtain rfl := Except.ok.inj h
    exact hp
  · split at h
    · rename_i hwaiting
      obtain rfl := Except.ok.inj h
      exact fun _ ↦ hwaiting
    · obtain rfl := Except.ok.inj h
      exact fun hempty ↦ absurd hempty (List.cons_ne_nil _ _)
  · cases h
  · obtain rfl := Except.ok.inj h
    exact fun hempty ↦ absurd hempty (List.cons_ne_nil _ _)

/-- What each update keeps, and no one else touches. -/
theorem inv_run {I : σ → Prop} (hperform : ∀ w s, I s → I (perform w s)) {pick : ℕ → ℕ}
    (hp : I p.shared) : I (p.run perform pick n).2 := by
  induction n generalizing p with
  | zero => exact hp
  | succ n ih =>
      unfold run
      split
      · exact hp
      · cases hnext : p.next perform (pick n % p.working.length) with
        | error e => exact hp
        | ok p' =>
            refine ih ?_
            unfold next at hnext
            dsimp only at hnext
            split at hnext
            · obtain rfl := Except.ok.inj hnext
              exact hp
            · split at hnext
              · obtain rfl := Except.ok.inj hnext
                exact hp
              · obtain rfl := Except.ok.inj hnext
                exact hp
            · cases hnext
            · obtain rfl := Except.ok.inj hnext
              exact hperform _ _ hp

section Total

variable [AddCommMonoid M] {abs : σ → M} {weight : κ → M}

/-- What there is, and what the jobs are still to add. -/
def left (abs : σ → M) (weight : κ → M) (p : Pool ε σ κ) : M :=
  abs p.shared + (p.working.map (Job.total weight)).sum + (p.waiting.map (Job.total weight)).sum

/-- No job throws. -/
def Quiet (p : Pool ε σ κ) : Prop :=
  (∀ job ∈ p.working, ¬ job.Throws) ∧ ∀ job ∈ p.waiting, ¬ job.Throws

/-- The step rule: the update of a step is taken from what is left. -/
theorem next_ok (hperform : ∀ w s, abs (perform w s) = abs s + weight w) (hp : p.Quiet)
    (hi : i < p.working.length) :
    ∃ p', p.next perform i = .ok p' ∧ p'.Quiet ∧ p'.left abs weight = p.left abs weight := by
  have hjob := List.getElem?_eq_getElem hi
  have hquiet := hp.1 _ (List.getElem_mem hi)
  have hothers : ∀ job ∈ p.working.eraseIdx i, ¬ job.Throws :=
    fun job hmem ↦ hp.1 job ((List.eraseIdx_sublist _ _).subset hmem)
  have hsum := sum_working (Job.total weight) hjob
  unfold next
  rw [hjob]
  cases hcase : p.working[i] with
  | done =>
      rw [hcase] at hsum
      cases hwaiting : p.waiting with
      | nil =>
          refine ⟨_, rfl, ⟨hothers, fun _ hmem ↦ (by cases hmem)⟩, ?_⟩
          simp only [left, hsum, hwaiting, Job.total, zero_add]
      | cons job waiting =>
          have hall := hp.2
          rw [hwaiting] at hall
          refine ⟨_, rfl, ⟨List.forall_mem_cons.mpr ⟨hall job List.mem_cons_self, hothers⟩,
            fun job' hmem ↦ hall job' (List.mem_cons_of_mem _ hmem)⟩, ?_⟩
          simp only [left, hsum, hwaiting, Job.total, zero_add, List.map_cons, List.sum_cons]
          ac_rfl
  | throw e =>
      rw [hcase] at hquiet
      exact absurd trivial hquiet
  | step w job =>
      rw [hcase] at hsum hquiet
      refine ⟨_, rfl, ⟨List.forall_mem_cons.mpr ⟨hquiet, hothers⟩, hp.2⟩, ?_⟩
      simp only [left, hsum, hperform, Job.total, List.map_cons, List.sum_cons]
      ac_rfl

/-- The run rule: whichever way the workers take turns, every job has come to its end. -/
theorem run_ok (hperform : ∀ w s, abs (perform w s) = abs s + weight w) (pick : ℕ → ℕ)
    (hp : p.Quiet) (hmanned : p.Manned) (hn : p.size ≤ n) :
    ∃ s, p.run perform pick n = (.ok (), s) ∧ abs s = p.left abs weight := by
  induction n generalizing p with
  | zero =>
      -- no step is left, so there is no job left
      have hempty : p.working = [] := by
        cases hworking : p.working with
        | nil => rfl
        | cons job rest =>
            have hpos : 0 < job.size := by cases job <;> exact Nat.succ_pos _
            unfold size at hn
            rw [hworking, List.map_cons, List.sum_cons] at hn
            omega
      refine ⟨p.shared, rfl, ?_⟩
      simp only [left, hempty, hmanned hempty, List.map_nil, List.sum_nil, add_zero]
  | succ n ih =>
      unfold run
      by_cases hempty : p.working = []
      · rw [if_pos hempty]
        refine ⟨p.shared, rfl, ?_⟩
        simp only [left, hempty, hmanned hempty, List.map_nil, List.sum_nil, add_zero]
      · rw [if_neg hempty]
        have hi := Nat.mod_lt (pick n) (List.length_pos_of_ne_nil hempty)
        obtain ⟨p', hnext, hquiet, hleft⟩ := next_ok hperform hp hi
        have hsize := size_next hnext hi
        rw [hnext, ← hleft]
        exact ih hquiet (manned_next hnext hmanned) (by omega)

end Total

end Pool

/-- The jobs of the items, by at most `limit` workers. -/
def mapWithConcurrency (perform : κ → σ → σ) (limit : ℕ) (pick : ℕ → ℕ) (jobs : List (Job ε κ)) :
    Service ε σ Unit := fun s ↦
  let p : Pool ε σ κ := ⟨jobs, List.replicate (max 1 (min limit jobs.length)) .done, s⟩
  p.run perform pick p.size

section Rules

variable {perform : κ → σ → σ} {limit : ℕ} {pick : ℕ → ℕ} {jobs : List (Job ε κ)} {s : σ}

theorem inv_mapWithConcurrency {I : σ → Prop} (hperform : ∀ w s, I s → I (perform w s))
    (hs : I s) : I (mapWithConcurrency perform limit pick jobs s).2 :=
  Pool.inv_run hperform hs

theorem mapWithConcurrency_ok [AddCommMonoid M] {abs : σ → M} {weight : κ → M} (limit : ℕ)
    (pick : ℕ → ℕ)
    (hperform : ∀ w s, abs (perform w s) = abs s + weight w)
    (hjobs : ∀ job ∈ jobs, ¬ job.Throws) :
    ∃ s', mapWithConcurrency perform limit pick jobs s = (.ok (), s') ∧
      abs s' = abs s + (jobs.map (Job.total weight)).sum := by
  have hworkers : (0 : ℕ) < max 1 (min limit jobs.length) := by omega
  obtain ⟨s', hrun, htotal⟩ := Pool.run_ok
    (p := ⟨jobs, List.replicate (max 1 (min limit jobs.length)) .done, s⟩) hperform pick
    ⟨fun job hmem ↦ by
      rw [List.eq_of_mem_replicate hmem]
      exact fun h ↦ h, hjobs⟩
    (fun hempty ↦ by
      rw [List.replicate_eq_nil_iff] at hempty
      omega) le_rfl
  refine ⟨s', hrun, ?_⟩
  rw [htotal]
  simp [Pool.left, Job.total]

theorem inv_exec {I : σ → Prop} (hperform : ∀ w s, I s → I (perform w s)) {job : Job ε κ}
    (hs : I s) : I (job.exec perform s).2 := by
  induction job generalizing s with
  | done => exact hs
  | throw e => exact hs
  | step w next ih => exact ih (hperform w s hs)

theorem exec_ok [AddCommMonoid M] {abs : σ → M} {weight : κ → M}
    (hperform : ∀ w s, abs (perform w s) = abs s + weight w) {job : Job ε κ}
    (hjob : ¬ job.Throws) :
    ∃ s', job.exec perform s = (.ok (), s') ∧ abs s' = abs s + job.total weight := by
  induction job generalizing s with
  | done => exact ⟨s, rfl, (add_zero _).symm⟩
  | throw e => exact absurd trivial hjob
  | step w next ih =>
      obtain ⟨s', hrun, htotal⟩ := @ih (perform w s) hjob
      refine ⟨s', hrun, ?_⟩
      rw [htotal, hperform, add_assoc]
      rfl

variable {α : Type} {f : α → Service ε σ Unit} {as : List α}

theorem inv_forEach {I : σ → Prop} (hf : ∀ a ∈ as, ∀ s, I s → I (f a s).2) (hs : I s) :
    I (Service.forEach f as s).2 := by
  induction as generalizing s with
  | nil => exact hs
  | cons a as ih =>
      rw [Service.forEach, Service.bind_apply]
      have hstep := hf a List.mem_cons_self s hs
      rcases hfa : f a s with ⟨r, s'⟩
      rw [hfa] at hstep
      cases r with
      | error e => exact hstep
      | ok u => exact ih (fun b hb ↦ hf b (List.mem_cons_of_mem a hb)) hstep

/-- What the passes of a loop add up to, when none of them throws. -/
theorem forEach_ok [AddCommMonoid M] {abs : σ → M} {g : α → M}
    (hf : ∀ a ∈ as, ∀ s, ∃ s', f a s = (.ok (), s') ∧ abs s' = abs s + g a) :
    ∃ s', Service.forEach f as s = (.ok (), s') ∧ abs s' = abs s + (as.map g).sum := by
  induction as generalizing s with
  | nil => exact ⟨s, rfl, (add_zero _).symm⟩
  | cons a as ih =>
      obtain ⟨s₁, hstep, habs⟩ := hf a List.mem_cons_self s
      obtain ⟨s', hrest, habs'⟩ := @ih s₁ fun b hb ↦ hf b (List.mem_cons_of_mem a hb)
      refine ⟨s', ?_, ?_⟩
      · rw [Service.forEach, Service.bind_apply, hstep]
        exact hrest
      · rw [habs', habs, List.map_cons, List.sum_cons, add_assoc]

end Rules

end Tesbo.Reasoning
