import FtNm.Framework.AccessLog

/-!
# Runs in lockstep

Two runs over two memories.  `Lockstep P R x y` says that as long as the accesses of `x` satisfy
`P`, the run `y` makes the same accesses in the same order, and ends as `x` does: both return, and
the values are related by `R`, or both stop in the same way.  With "the memories agree there" for
`P`, this is what makes a log complete: whatever a run does not log has no influence on it.

`Lockstep.bind` is the sequencing rule, the other rules are the leaves.
-/

namespace AccessLog

variable {ι ε α α' β β' : Type}

/-- Two outcomes of the same kind: values that are related, or the same stop. -/
inductive SameOutcome (R : α → α' → Prop) : Except ε α → Except ε α' → Prop
  | ok {a : α} {a' : α'} (h : R a a') : SameOutcome R (.ok a) (.ok a')
  | error (e : ε) : SameOutcome R (.error e) (.error e)

namespace Run

/-- If the accesses of `x` satisfy `P`, then `y` makes the same ones, with a like outcome. -/
def Lockstep (P : ι → Prop) (R : α → α' → Prop) (x : Run ι ε α) (y : Run ι ε α') : Prop :=
  x.All P → y.log = x.log ∧ SameOutcome R x.out y.out

section Rules

variable {P : ι → Prop} {R : α → α' → Prop} {S : β → β' → Prop}

lemma lockstep_pure {a : α} {a' : α'} (h : R a a') :
    (pure a : Run ι ε α).Lockstep P R (pure a') :=
  fun _ => ⟨rfl, .ok h⟩

lemma lockstep_touch {is : List ι} {a : α} {a' : α'} (h : (∀ i ∈ is, P i) → R a a') :
    (touch is a : Run ι ε α).Lockstep P R (touch is a') :=
  fun hall => ⟨rfl, .ok (h hall)⟩

lemma lockstep_check {c c' : Prop} [Decidable c] [Decidable c'] (h : c ↔ c') (e : ε) :
    (check c e : Run ι ε Unit).Lockstep P (fun _ _ => True) (check c' e) := by
  intro _
  unfold check
  by_cases hc : c
  · rw [if_pos hc, if_pos (h.mp hc)]
    exact ⟨rfl, .ok trivial⟩
  · rw [if_neg hc, if_neg (mt h.mpr hc)]
    exact ⟨rfl, .error e⟩

/-- **Sequencing rule.** -/
lemma Lockstep.bind {x : Run ι ε α} {x' : Run ι ε α'} {f : α → Run ι ε β} {f' : α' → Run ι ε β'}
    (hx : x.Lockstep P R x') (hf : ∀ a a', R a a' → (f a).Lockstep P S (f' a')) :
    (x >>= f).Lockstep P S (x' >>= f') := by
  intro hall
  obtain ⟨hfirst, hrest⟩ := (all_bind P x f).mp hall
  obtain ⟨hlog, hout⟩ := hx hfirst
  show (Run.bind x' f').log = (Run.bind x f).log ∧
    SameOutcome S (Run.bind x f).out (Run.bind x' f').out
  unfold Run.bind
  generalize hxout : x.out = r at hout hrest
  generalize x'.out = r' at hout
  cases hout with
  | ok h =>
    obtain ⟨hlog', hout'⟩ := hf _ _ h (hrest _ rfl)
    refine ⟨?_, hout'⟩
    dsimp only
    rw [hlog, hlog']
  | error e => exact ⟨hlog, .error e⟩

lemma Lockstep.ite {c c' : Prop} [Decidable c] [Decidable c'] (h : c ↔ c') {x y : Run ι ε α}
    {x' y' : Run ι ε α'} (hx : x.Lockstep P R x') (hy : y.Lockstep P R y') :
    (if c then x else y).Lockstep P R (if c' then x' else y') := by
  by_cases hc : c
  · rwa [if_pos hc, if_pos (h.mp hc)]
  · rwa [if_neg hc, if_neg (mt h.mpr hc)]

end Rules

end Run

end AccessLog
