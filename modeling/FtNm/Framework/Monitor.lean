import FtNm.Framework.AccessLog

/-!
# Runs under a monitor

A protocol on what a run may do is an automaton that reads its log.  `Monitor.step s i` is the
state that the access `i` leads to from `s`, and nothing if `i` is out of turn there.

* `Monitor.run` reads a whole log; `Monitor.run_append` cuts it in two.
* `Run.Conforms` is the triple: read from a state, every access of the run is in turn, and the
  state at the end fits what the run returned or stopped with.  `Conforms.bind` is its
  sequencing rule, `conforms_touch` and its companions are the leaves.
-/

namespace AccessLog

/-- An automaton over accesses. -/
structure Monitor (σ ι : Type) where
  step : σ → ι → Option σ

variable {σ ι ε α β : Type}

namespace Monitor

variable (M : Monitor σ ι)

/-- The state that a log leads to, if each of its accesses is in turn. -/
def run : σ → List ι → Option σ
  | s, [] => some s
  | s, i :: is => (M.step s i).bind fun s' => run s' is

@[simp] lemma run_nil (s : σ) : M.run s [] = some s := rfl

lemma run_cons (s : σ) (i : ι) (is : List ι) :
    M.run s (i :: is) = (M.step s i).bind fun s' => M.run s' is := rfl

lemma run_singleton (s : σ) (i : ι) : M.run s [i] = M.step s i := by
  rw [run_cons]
  cases M.step s i <;> rfl

lemma run_append (s : σ) (is js : List ι) :
    M.run s (is ++ js) = (M.run s is).bind fun s' => M.run s' js := by
  induction is generalizing s with
  | nil => rfl
  | cons i is ih =>
    rw [List.cons_append, run_cons, run_cons]
    cases M.step s i with
    | none => rfl
    | some s' => exact ih s'

end Monitor

namespace Run

variable {M : Monitor σ ι} {s : σ}

/-- Every access is in turn from the state `s` on, and the state at the end satisfies `Q` with
the value that is returned, or `R` if the run stops. -/
def Conforms (M : Monitor σ ι) (s : σ) (x : Run ι ε α) (Q : α → σ → Prop) (R : σ → Prop) : Prop :=
  ∃ s', M.run s x.log = some s' ∧ (∀ a, x.out = .ok a → Q a s') ∧ (∀ e, x.out = .error e → R s')

section Conforms

variable {x : Run ι ε α} {Q : α → σ → Prop} {R : σ → Prop}

lemma conforms_pure {a : α} (h : Q a s) : (pure a : Run ι ε α).Conforms M s Q R := by
  refine ⟨s, rfl, ?_, nofun⟩
  intro b hb
  exact Except.ok.inj hb ▸ h

lemma conforms_stop {e : ε} (h : R s) : (stop e : Run ι ε α).Conforms M s Q R :=
  ⟨s, rfl, nofun, fun _ _ => h⟩

lemma conforms_touch {i : ι} {a : α} {s' : σ} (hstep : M.step s i = some s') (h : Q a s') :
    (touch [i] a : Run ι ε α).Conforms M s Q R := by
  refine ⟨s', (M.run_singleton s i).trans hstep, ?_, nofun⟩
  intro b hb
  exact Except.ok.inj hb ▸ h

/-- **Sequencing rule.** -/
lemma Conforms.bind {P : β → σ → Prop} {f : α → Run ι ε β} (hx : x.Conforms M s Q R)
    (hf : ∀ a t, Q a t → (f a).Conforms M t P R) : (x >>= f).Conforms M s P R := by
  obtain ⟨t, hrun, hok, herror⟩ := hx
  show (Run.bind x f).Conforms M s P R
  unfold Run.bind
  cases hout : x.out with
  | ok a =>
    obtain ⟨t', hrun', hok', herror'⟩ := hf a t (hok a hout)
    refine ⟨t', ?_, hok', herror'⟩
    rw [M.run_append, hrun]
    exact hrun'
  | error e => exact ⟨t, hrun, nofun, fun _ _ => herror e hout⟩

/-- One access, and the rest from where it leads to. -/
lemma conforms_touch_bind {i : ι} {a : β} {s' : σ} {f : β → Run ι ε α}
    (hstep : M.step s i = some s') (hf : (f a).Conforms M s' Q R) :
    ((touch [i] a : Run ι ε β) >>= f).Conforms M s Q R := by
  have htouch : (touch [i] a : Run ι ε β).Conforms M s (fun b t => b = a ∧ t = s') R :=
    conforms_touch hstep ⟨rfl, rfl⟩
  refine htouch.bind ?_
  rintro _ _ ⟨rfl, rfl⟩
  exact hf

end Conforms

end Run

end AccessLog
