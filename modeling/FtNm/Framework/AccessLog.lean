import Mathlib.Tactic

/-!
# Computations that log what they touch

A program that walks untrusted memory is judged by *which* cells it touches as much as by
what it returns.  `Run ι ε α` is a computation that appends an `ι` to a log for every access,
and then either returns an `α` or stops with an `ε`.  An access is logged where it is made,
so the log of a stopped run is the log of what happened before the stop.

* `Run.out` is the value half.  `Run.out_bind` and its companions push it through the program
  and turn it into a plain `Except` computation; `Run.out_bind_eq_ok` is the inversion rule.
* `Run.All P` is the access half: every logged access satisfies `P`.  `Run.all_bind` is its
  sequencing rule, and the `all_` lemmas carry it to the leaves of a program.
* `Run.Returns Q` says of a value that it satisfies `Q` if the run returns one.
* `Run.Finishes P Q` joins the two: every access satisfies `P`, and the run returns a value that
  satisfies `Q`.  `Run.Reaches P` says that a run is another one after such accesses, and
  `Run.Breaks P e` that a run makes an access of another kind before it stops with `e`.

Nothing here mentions what is accessed: the access type, the stop type and the predicate are
all parameters.
-/

namespace AccessLog

/-- A computation with an access log: what it touched, and what it returned or stopped with. -/
structure Run (ι ε α : Type) where
  log : List ι
  out : Except ε α

namespace Run

variable {ι ε α β : Type}

/-- Sequencing: the second computation runs, and logs, only when the first one returns. -/
protected def bind (x : Run ι ε α) (f : α → Run ι ε β) : Run ι ε β :=
  match x.out with
  | .ok a => ⟨x.log ++ (f a).log, (f a).out⟩
  | .error e => ⟨x.log, .error e⟩

instance : Monad (Run ι ε) where
  pure a := ⟨[], .ok a⟩
  bind := Run.bind

/-- Return `a` after touching the cells `is`. -/
def touch (is : List ι) (a : α) : Run ι ε α := ⟨is, .ok a⟩

/-- Stop with `e`. -/
def stop (e : ε) : Run ι ε α := ⟨[], .error e⟩

/-- Go on when `c` holds, stop with `e` when it does not. -/
def check (c : Prop) [Decidable c] (e : ε) : Run ι ε Unit :=
  if c then pure () else stop e

/-- Every access of the run satisfies `P`. -/
def All (P : ι → Prop) (x : Run ι ε α) : Prop := ∀ i ∈ x.log, P i

/-- Sequencing is associative, in the outcome and in the log. -/
lemma bind_assoc {γ : Type} (x : Run ι ε α) (f : α → Run ι ε β) (g : β → Run ι ε γ) :
    x >>= f >>= g = x >>= fun a => f a >>= g := by
  show Run.bind (Run.bind x f) g = Run.bind x fun a => Run.bind (f a) g
  unfold Run.bind
  cases x.out with
  | error e => rfl
  | ok a => cases h : (f a).out <;> simp [h]

/-! ## The value half -/

@[simp] lemma out_pure (a : α) : (pure a : Run ι ε α).out = .ok a := rfl

@[simp] lemma out_touch (is : List ι) (a : α) : (touch is a : Run ι ε α).out = .ok a := rfl

@[simp] lemma out_stop (e : ε) : (stop e : Run ι ε α).out = .error e := rfl

@[simp] lemma out_ite (c : Prop) [Decidable c] (x y : Run ι ε α) :
    (if c then x else y).out = if c then x.out else y.out :=
  apply_ite Run.out c x y

@[simp] lemma out_check (c : Prop) [Decidable c] (e : ε) :
    (check c e : Run ι ε Unit).out = if c then .ok () else .error e := by
  simp [check]

/-- The outcome of a sequence is the outcome of the second computation on the first result. -/
lemma out_bind (x : Run ι ε α) (f : α → Run ι ε β) :
    (x >>= f).out = match x.out with
      | .ok a => (f a).out
      | .error e => .error e := by
  show (Run.bind x f).out = _
  unfold Run.bind
  cases x.out <;> rfl

lemma out_bind_of_ok {x : Run ι ε α} {a : α} (h : x.out = .ok a) (f : α → Run ι ε β) :
    (x >>= f).out = (f a).out := by
  rw [out_bind, h]

lemma out_bind_of_error {x : Run ι ε α} {e : ε} (h : x.out = .error e) (f : α → Run ι ε β) :
    (x >>= f).out = .error e := by
  rw [out_bind, h]

@[simp] lemma out_touch_bind (is : List ι) (a : α) (f : α → Run ι ε β) :
    ((touch is a : Run ι ε α) >>= f).out = (f a).out :=
  out_bind_of_ok rfl f

@[simp] lemma out_check_bind (c : Prop) [Decidable c] (e : ε) (f : Unit → Run ι ε β) :
    ((check c e : Run ι ε Unit) >>= f).out = if c then (f ()).out else .error e := by
  rw [out_bind, out_check]
  split_ifs <;> rfl

/-- **Inversion.**  A sequence returns exactly when both of its halves do. -/
lemma out_bind_eq_ok {x : Run ι ε α} {f : α → Run ι ε β} {b : β} :
    (x >>= f).out = .ok b ↔ ∃ a, x.out = .ok a ∧ (f a).out = .ok b := by
  rw [out_bind]
  cases x.out <;> simp

/-- If the run returns a value, that value satisfies `Q`. -/
def Returns (x : Run ι ε α) (Q : α → Prop) : Prop := ∀ a, x.out = .ok a → Q a

lemma returns_pure {Q : α → Prop} {a : α} (h : Q a) : (pure a : Run ι ε α).Returns Q := by
  intro b hb
  exact Except.ok.inj hb ▸ h

/-- **Sequencing rule.**  What the second half returns, the sequence returns. -/
lemma Returns.bind {x : Run ι ε α} {P : α → Prop} {Q : β → Prop} {f : α → Run ι ε β}
    (hx : x.Returns P) (hf : ∀ a, P a → (f a).Returns Q) : (x >>= f).Returns Q := by
  intro b hb
  obtain ⟨a, ha, hb⟩ := out_bind_eq_ok.mp hb
  exact hf a (hx a ha) b hb

/-- Nothing need be known of what the first half returns. -/
lemma returns_bind {x : Run ι ε α} {Q : β → Prop} {f : α → Run ι ε β}
    (hf : ∀ a, (f a).Returns Q) : (x >>= f).Returns Q :=
  Returns.bind (fun _ _ => trivial) fun a (_ : True) => hf a

/-! ## The access half -/

@[simp] lemma all_pure (P : ι → Prop) (a : α) : (pure a : Run ι ε α).All P := by
  intro i hi
  cases hi

@[simp] lemma all_stop (P : ι → Prop) (e : ε) : (stop e : Run ι ε α).All P := by
  intro i hi
  cases hi

@[simp] lemma all_touch (P : ι → Prop) (is : List ι) (a : α) :
    (touch is a : Run ι ε α).All P ↔ ∀ i ∈ is, P i := Iff.rfl

@[simp] lemma all_check (P : ι → Prop) (c : Prop) [Decidable c] (e : ε) :
    (check c e : Run ι ε Unit).All P := by
  unfold check
  split_ifs <;> simp

lemma all_ite (P : ι → Prop) (c : Prop) [Decidable c] (x y : Run ι ε α) :
    (if c then x else y).All P ↔ (c → x.All P) ∧ (¬c → y.All P) := by
  split_ifs with h <;> simp [h]

/-- **Sequencing rule.**  Every access of a sequence is allowed exactly when every access of
the first half is, and, if that half returns, every access of the second half is too. -/
lemma all_bind (P : ι → Prop) (x : Run ι ε α) (f : α → Run ι ε β) :
    (x >>= f).All P ↔ x.All P ∧ ∀ a, x.out = .ok a → (f a).All P := by
  show (Run.bind x f).All P ↔ _
  unfold Run.bind All
  cases h : x.out with
  | ok a =>
    simp only [List.mem_append, Except.ok.injEq, forall_eq']
    constructor
    · intro hall
      exact ⟨fun i hi => hall i (.inl hi), fun i hi => hall i (.inr hi)⟩
    · rintro ⟨hx, hf⟩ i (hi | hi)
      · exact hx i hi
      · exact hf i hi
  | error e => simp

lemma all_bind_of_ok (P : ι → Prop) {x : Run ι ε α} {a : α} (h : x.out = .ok a)
    (f : α → Run ι ε β) : (x >>= f).All P ↔ x.All P ∧ (f a).All P := by
  rw [all_bind]
  simp [h]

lemma all_bind_of_error (P : ι → Prop) {x : Run ι ε α} {e : ε} (h : x.out = .error e)
    (f : α → Run ι ε β) : (x >>= f).All P ↔ x.All P := by
  rw [all_bind]
  simp [h]

@[simp] lemma all_touch_bind (P : ι → Prop) (is : List ι) (a : α) (f : α → Run ι ε β) :
    ((touch is a : Run ι ε α) >>= f).All P ↔ (∀ i ∈ is, P i) ∧ (f a).All P := by
  rw [all_bind_of_ok P rfl]
  simp

@[simp] lemma all_check_bind (P : ι → Prop) (c : Prop) [Decidable c] (e : ε)
    (f : Unit → Run ι ε β) :
    ((check c e : Run ι ε Unit) >>= f).All P ↔ (c → (f ()).All P) := by
  by_cases h : c
  · have hout : (check c e : Run ι ε Unit).out = .ok () := by simp [h]
    rw [all_bind_of_ok P hout]
    simp [h]
  · have hout : (check c e : Run ι ε Unit).out = .error e := by simp [h]
    rw [all_bind_of_error P hout]
    simp [h]

/-- An access of the first half is an access of the sequence. -/
lemma mem_log_bind {i : ι} {x : Run ι ε α} (hi : i ∈ x.log) (f : α → Run ι ε β) :
    i ∈ (x >>= f).log := by
  show i ∈ (Run.bind x f).log
  unfold Run.bind
  cases x.out with
  | ok a => exact List.mem_append_left _ hi
  | error e => exact hi

/-! ## Both halves -/

/-- Every access satisfies `P`, and the run returns a value that satisfies `Q`. -/
def Finishes (P : ι → Prop) (x : Run ι ε α) (Q : α → Prop) : Prop :=
  x.All P ∧ ∃ a, x.out = .ok a ∧ Q a

section Finishes

variable {P : ι → Prop} {x : Run ι ε α} {Q : α → Prop} {R : β → Prop}

lemma finishes_pure {a : α} (h : Q a) : (pure a : Run ι ε α).Finishes P Q :=
  ⟨all_pure P a, a, rfl, h⟩

lemma finishes_touch {is : List ι} {a : α} (his : ∀ i ∈ is, P i) (h : Q a) :
    (touch is a : Run ι ε α).Finishes P Q :=
  ⟨his, a, rfl, h⟩

/-- **Sequencing rule.** -/
lemma Finishes.bind {f : α → Run ι ε β} (hx : x.Finishes P Q)
    (hf : ∀ a, Q a → (f a).Finishes P R) : (x >>= f).Finishes P R := by
  obtain ⟨hall, a, hout, hq⟩ := hx
  obtain ⟨hall', b, hout', hr⟩ := hf a hq
  refine ⟨(all_bind_of_ok P hout f).mpr ⟨hall, hall'⟩, b, ?_, hr⟩
  rw [out_bind_of_ok hout]
  exact hout'

/-- The same where the result of the first half is known. -/
lemma Finishes.bind_eq {a : α} {f : α → Run ι ε β} (hx : x.Finishes P (· = a))
    (hf : (f a).Finishes P R) : (x >>= f).Finishes P R := by
  refine hx.bind fun b hb => ?_
  rw [hb]
  exact hf

lemma Finishes.mono {Q' : α → Prop} (hx : x.Finishes P Q) (h : ∀ a, Q a → Q' a) :
    x.Finishes P Q' := by
  obtain ⟨hall, a, hout, hq⟩ := hx
  exact ⟨hall, a, hout, h a hq⟩

end Finishes

/-- The run is `y`, after accesses that satisfy `P`. -/
def Reaches (P : ι → Prop) (x y : Run ι ε α) : Prop :=
  ∃ log, (∀ i ∈ log, P i) ∧ x.log = log ++ y.log ∧ x.out = y.out

section Reaches

variable {P : ι → Prop} {x y : Run ι ε α}

lemma Reaches.refl (P : ι → Prop) (x : Run ι ε α) : x.Reaches P x :=
  ⟨[], by simp, rfl, rfl⟩

/-- A run that finishes is passed over. -/
lemma Finishes.reaches {z : Run ι ε β} {Q : β → Prop} {f : β → Run ι ε α} (hz : z.Finishes P Q)
    (hf : ∀ b, Q b → (f b).Reaches P y) : (z >>= f).Reaches P y := by
  obtain ⟨hall, b, hout, hq⟩ := hz
  obtain ⟨log, hlog, hxlog, hxout⟩ := hf b hq
  refine ⟨z.log ++ log, ?_, ?_, ?_⟩
  · intro i hi
    rcases List.mem_append.mp hi with hi | hi
    · exact hall i hi
    · exact hlog i hi
  · show (Run.bind z f).log = _
    unfold Run.bind
    rw [hout]
    dsimp only
    rw [hxlog, List.append_assoc]
  · rw [out_bind_of_ok hout]
    exact hxout

lemma Reaches.finishes {Q : α → Prop} (h : x.Reaches P y) (hy : y.Finishes P Q) :
    x.Finishes P Q := by
  obtain ⟨log, hlog, hxlog, hxout⟩ := h
  obtain ⟨hall, hq⟩ := hy
  refine ⟨?_, ?_⟩
  · intro i hi
    rw [hxlog] at hi
    rcases List.mem_append.mp hi with hi | hi
    · exact hlog i hi
    · exact hall i hi
  · rw [hxout]
    exact hq

lemma Reaches.mem_log {i : ι} (h : x.Reaches P y) (hi : i ∈ y.log) : i ∈ x.log := by
  obtain ⟨log, -, hxlog, -⟩ := h
  rw [hxlog]
  exact List.mem_append_right _ hi

end Reaches

/-- An access that does not satisfy `P` is made, and then the run stops with `e`. -/
def Breaks (P : ι → Prop) (x : Run ι ε α) (e : ε) : Prop :=
  (∃ i ∈ x.log, ¬P i) ∧ x.out = .error e

section Breaks

variable {P Q : ι → Prop} {x y : Run ι ε α} {e : ε}

lemma breaks_touch_bind {is : List ι} {a : α} {i : ι} (hi : i ∈ is) (hP : ¬P i)
    {f : α → Run ι ε β} (hstop : (f a).out = .error e) :
    ((touch is a : Run ι ε α) >>= f).Breaks P e :=
  ⟨⟨i, mem_log_bind hi f, hP⟩, by rw [out_touch_bind, hstop]⟩

/-- Nothing happens after the stop. -/
lemma Breaks.bind (h : x.Breaks P e) (f : α → Run ι ε β) : (x >>= f).Breaks P e := by
  obtain ⟨⟨i, hi, hP⟩, hout⟩ := h
  exact ⟨⟨i, mem_log_bind hi f, hP⟩, out_bind_of_error hout f⟩

lemma Reaches.breaks (h : x.Reaches Q y) (hy : y.Breaks P e) : x.Breaks P e := by
  obtain ⟨⟨i, hi, hP⟩, hout⟩ := hy
  refine ⟨⟨i, h.mem_log hi, hP⟩, ?_⟩
  obtain ⟨-, -, -, hxout⟩ := h
  rw [hxout, hout]

/-- A run that finishes is passed over. -/
lemma Finishes.breaks {z : Run ι ε β} {b : β} {f : β → Run ι ε α} (hz : z.Finishes Q (· = b))
    (hf : (f b).Breaks P e) : (z >>= f).Breaks P e := by
  refine (hz.reaches fun b' hb => ?_).breaks hf
  rw [hb]
  exact Reaches.refl Q _

end Breaks

end Run

end AccessLog
