import Mathlib.Tactic

/-!
# A heap of blocks

Memory as `malloc` hands it out: blocks of cells at addresses, where a cell that has not been
written holds nothing.  A pointer is an address or null.

* `Command` is a computation on a `Store`.  It stops with a `Fault` where C leaves the behaviour
  open: `null` for a null pointer that is followed, `invalid` for a cell outside the live blocks,
  for a cell that has not been written, and for a block that is freed twice.
* `Allocator` is what decides where the blocks go, and which requests are refused.  All that is
  asked of it is that a new block is none of the live ones.
* `Command.Leads N x s Q` is the triple: from the store `s`, the command `x` ends with a result
  and a store that satisfy `Q`, or it follows a null pointer, and then `N` holds; it is never
  `invalid`.  `Leads.bind` is the sequencing rule, the other rules are those of the operations.
* A store counts the operations of one kind, those that are marked with `tick`.
* `Store.Holds` and `Store.after` are the special case of blocks in which every cell is written.
-/

namespace BlockHeap

/-- A block of cells. -/
abbrev Block (α : Type) := List (Option α)

/-- The live blocks and their addresses. -/
abbrev Heap (α : Type) := ℕ → Option (Block α)

/-- An address, or null. -/
abbrev Ptr := Option ℕ

/-- The heap, and the count of the operations that are counted. -/
@[ext]
structure Store (α : Type) where
  heap : Heap α
  ticks : ℕ

/-- Why a computation stopped. -/
inductive Fault
  | null
  | invalid
  deriving DecidableEq, Repr

/-- A computation on a store. -/
abbrev Command (α β : Type) := StateT (Store α) (Except Fault) β

/-- Where the next block of `n` cells goes, if the request is met. -/
structure Allocator (α : Type) where
  pick : Heap α → ℕ → Ptr
  fresh : ∀ h n a, pick h n = some a → h a = none

variable {α β γ : Type}

/-- Finitely many blocks are live. -/
def Heap.Fits (h : Heap α) : Prop := {a | h a ≠ none}.Finite

namespace Store

/-- The store with another block, or none, at an address. -/
def set (s : Store α) (a : ℕ) (b : Option (Block α)) : Store α :=
  { s with heap := Function.update s.heap a b }

@[simp] lemma set_ticks (s : Store α) (a : ℕ) (b : Option (Block α)) :
    (s.set a b).ticks = s.ticks := rfl

@[simp] lemma set_heap_self (s : Store α) (a : ℕ) (b : Option (Block α)) :
    (s.set a b).heap a = b := by
  simp [set]

lemma set_heap_ne (s : Store α) {a a' : ℕ} (h : a' ≠ a) (b : Option (Block α)) :
    (s.set a b).heap a' = s.heap a' := by
  simp [set, Function.update_of_ne h]

lemma set_fits {s : Store α} (h : s.heap.Fits) (a : ℕ) (b : Option (Block α)) :
    (s.set a b).heap.Fits := by
  refine (h.insert a).subset fun a' ha' => ?_
  by_cases haa : a' = a
  · exact .inl haa
  · rw [Set.mem_ofPred_eq, set_heap_ne s haa] at ha'
    exact .inr ha'

/-- The store with one more operation counted. -/
def tick (s : Store α) : Store α := { s with ticks := s.ticks + 1 }

/-- The block at an address consists of the values `xs`, all of them written. -/
def Holds (s : Store α) (a : ℕ) (xs : List α) : Prop := s.heap a = some (xs.map some)

/-- The store with the values `xs` at an address, after `n` more operations have been counted. -/
def after (s : Store α) (a : ℕ) (xs : List α) (n : ℕ) : Store α where
  heap := Function.update s.heap a (some (xs.map some))
  ticks := s.ticks + n

section After

variable {s : Store α} {a a' : ℕ} {xs ys : List α} {n n' : ℕ}

@[simp] lemma after_ticks : (s.after a xs n).ticks = s.ticks + n := rfl

lemma holds_after : (s.after a xs n).Holds a xs := by
  simp [Holds, after]

lemma Holds.after (h : s.Holds a' ys) (hne : a' ≠ a) : (s.after a xs n).Holds a' ys := by
  simpa [Holds, Store.after, Function.update_of_ne hne] using h

lemma Holds.set (h : s.Holds a' ys) (hne : a' ≠ a) (b : Option (Block α)) :
    (s.set a b).Holds a' ys := (set_heap_ne s hne b).trans h

/-- A live block is not where a new one goes. -/
lemma Holds.ne (h : s.Holds a xs) (h' : s.heap a' = none) : a ≠ a' := by
  rintro rfl
  exact Option.some_ne_none _ (h.symm.trans h')

lemma after_heap_ne (hne : a' ≠ a) : (s.after a xs n).heap a' = s.heap a' := by
  simp [Store.after, Function.update_of_ne hne]

lemma after_fits (h : s.heap.Fits) : (s.after a xs n).heap.Fits := set_fits h a _

lemma after_self (h : s.Holds a xs) : s.after a xs 0 = s := by
  have hheap : Function.update s.heap a (some (xs.map some)) = s.heap := by
    rw [← h, Function.update_eq_self]
  rw [after, hheap, Nat.add_zero]

@[simp] lemma after_after : (s.after a xs n).after a ys n' = s.after a ys (n + n') := by
  simp [after, Nat.add_assoc]

lemma tick_after : s.tick.after a xs n = s.after a xs (n + 1) := by
  simp only [after, tick]
  congr 1
  omega

end After

end Store

/-! ## The operations -/

/-- The block that a pointer points to. -/
def blockAt (p : Ptr) : Command α (ℕ × Block α) := fun s =>
  match p with
  | none => .error .null
  | some a =>
    match s.heap a with
    | some b => .ok ((a, b), s)
    | none => .error .invalid

/-- Go on with a value that has to be there. -/
def valid (v : Option β) : Command α β := fun s =>
  match v with
  | some b => .ok (b, s)
  | none => .error .invalid

/-- Put a block in the place of another one. -/
def put (a : ℕ) (b : Option (Block α)) : Command α Unit := fun s => .ok ((), s.set a b)

/-- `p[i]`. -/
def load (p : Ptr) (i : ℕ) : Command α α := do
  let (_, b) ← blockAt p
  valid (b[i]?.join)

/-- `p[i] = v`. -/
def store (p : Ptr) (i : ℕ) (v : α) : Command α Unit := do
  let (a, b) ← blockAt p
  valid (if i < b.length then some () else none)
  put a (some (b.set i (some v)))

/-- `memcpy(dst, src + off, n)`, where the regions do not overlap. -/
def memcpy (dst src : Ptr) (off n : ℕ) : Command α Unit := do
  let (_, b) ← blockAt src
  let (a, b') ← blockAt dst
  valid (if off + n ≤ b.length ∧ n ≤ b'.length then some () else none)
  put a (some ((b.drop off).take n ++ b'.drop n))

/-- `malloc` of `n` cells. -/
def malloc (A : Allocator α) (n : ℕ) : Command α Ptr := fun s =>
  match A.pick s.heap n with
  | some a => .ok (some a, s.set a (some (List.replicate n none)))
  | none => .ok (none, s)

/-- `free`. -/
def free (p : Ptr) : Command α Unit :=
  match p with
  | none => pure ()
  | some _ => do
    let (a, _) ← blockAt p
    put a none

/-- Count one. -/
def tick : Command α Unit := fun s => .ok ((), s.tick)

/-! ## The rules -/

namespace Command

/-- The command ends in `Q`, or it follows a null pointer and `N` holds. -/
def Leads (N : Prop) (x : Command α β) (s : Store α) (Q : β → Store α → Prop) : Prop :=
  match x s with
  | .ok (b, s') => Q b s'
  | .error .null => N
  | .error .invalid => False

section Rules

variable {N : Prop} {s : Store α} {Q : β → Store α → Prop}

lemma leads_pure {b : β} (h : Q b s) : (pure b : Command α β).Leads N s Q := h

/-- **Sequencing rule.** -/
lemma Leads.bind {x : Command α β} {f : β → Command α γ} {R : γ → Store α → Prop}
    (hx : x.Leads N s Q) (hf : ∀ b t, Q b t → (f b).Leads N t R) : (x >>= f).Leads N s R := by
  unfold Leads at hx
  have hbind : (x >>= f) s = match x s with
      | .ok (b, t) => f b t
      | .error e => .error e := by
    show Except.bind (x s) _ = _
    cases x s <;> rfl
  unfold Leads
  rw [hbind]
  match x s, hx with
  | .ok (b, t), hx => exact hf b t hx
  | .error .null, hx => exact hx

lemma Leads.mono {Q' : β → Store α → Prop} {x : Command α β} (h : x.Leads N s Q)
    (hQ : ∀ b t, Q b t → Q' b t) : x.Leads N s Q' := by
  unfold Leads at h ⊢
  match x s, h with
  | .ok (b, t), h => exact hQ b t h
  | .error .null, h => exact h

/-- What a command that has a triple does. -/
lemma Leads.cases {x : Command α β} (h : x.Leads N s Q) :
    (∃ b t, x s = .ok (b, t) ∧ Q b t) ∨ (x s = .error .null ∧ N) := by
  unfold Leads at h
  match hx : x s with
  | .ok (b, t) =>
    rw [hx] at h
    exact .inl ⟨b, t, rfl, h⟩
  | .error .null =>
    rw [hx] at h
    exact .inr ⟨rfl, h⟩
  | .error .invalid =>
    rw [hx] at h
    exact h.elim

end Rules

section Operations

variable {N : Prop} {s : Store α} {a : ℕ} {b : Block α}

/-- An operation on a live block is passed over. -/
lemma leads_blockAt_bind (h : s.heap a = some b) {f : ℕ × Block α → Command α β}
    {Q : β → Store α → Prop} (hf : (f (a, b)).Leads N s Q) :
    (blockAt (some a) >>= f).Leads N s Q := by
  have hblock : (blockAt (some a) : Command α (ℕ × Block α)).Leads N s
      fun r t => r = (a, b) ∧ t = s := by
    simp [Leads, blockAt, h]
  refine hblock.bind ?_
  rintro _ _ ⟨rfl, rfl⟩
  exact hf

lemma leads_load {i : ℕ} {v : α} {Q : α → Store α → Prop} (h : s.heap a = some b)
    (hv : b[i]? = some (some v)) (hQ : Q v s) : (load (some a) i).Leads N s Q := by
  refine leads_blockAt_bind h ?_
  simp only [valid, Leads, hv, Option.join_some]
  exact hQ

lemma leads_store {i : ℕ} {v : α} {Q : Unit → Store α → Prop} (h : s.heap a = some b)
    (hi : i < b.length) (hQ : Q () (s.set a (some (b.set i (some v))))) :
    (store (some a) i v).Leads N s Q := by
  refine leads_blockAt_bind h ?_
  simp only [if_pos hi]
  exact hQ

lemma leads_memcpy {a' off n : ℕ} {b' : Block α} {Q : Unit → Store α → Prop}
    (h : s.heap a = some b) (h' : s.heap a' = some b') (hoff : off + n ≤ b.length)
    (hn : n ≤ b'.length) (hQ : Q () (s.set a' (some ((b.drop off).take n ++ b'.drop n)))) :
    (memcpy (some a') (some a) off n).Leads N s Q := by
  refine leads_blockAt_bind h (leads_blockAt_bind h' ?_)
  simp only [if_pos (And.intro hoff hn)]
  exact hQ

/-- The null pointer is followed. -/
lemma leads_memcpy_null {off n : ℕ} {Q : Unit → Store α → Prop} (h : s.heap a = some b)
    (hN : N) : (memcpy none (some a) off n).Leads N s Q :=
  leads_blockAt_bind h hN

/-- A request is met with a new block, or refused. -/
lemma leads_malloc {A : Allocator α} {n : ℕ} {Q : Ptr → Store α → Prop}
    (hrefused : A.pick s.heap n = none → Q none s)
    (hmet : ∀ a, s.heap a = none → Q (some a) (s.set a (some (List.replicate n none)))) :
    (malloc A n).Leads N s Q := by
  unfold Leads malloc
  cases hpick : A.pick s.heap n with
  | none => exact hrefused hpick
  | some a => exact hmet a (A.fresh s.heap n a hpick)

lemma leads_free {Q : Unit → Store α → Prop} (h : s.heap a = some b)
    (hQ : Q () (s.set a none)) : (free (some a)).Leads N s Q :=
  leads_blockAt_bind h hQ

lemma leads_tick {Q : Unit → Store α → Prop} (hQ : Q () s.tick) :
    (tick : Command α Unit).Leads N s Q := hQ

/-- An operation with one outcome is passed over. -/
lemma Leads.then {b : β} {t : Store α} {x : Command α β} {f : β → Command α γ}
    {R : γ → Store α → Prop} (hx : x.Leads N s fun b' t' => b' = b ∧ t' = t)
    (hf : (f b).Leads N t R) : (x >>= f).Leads N s R := by
  refine hx.bind ?_
  rintro _ _ ⟨rfl, rfl⟩
  exact hf

/-- Reading a written value. -/
lemma leads_load_bind {i : ℕ} {xs : List α} {f : α → Command α β} {Q : β → Store α → Prop}
    (h : s.Holds a xs) (hi : i < xs.length) (hf : (f xs[i]).Leads N s Q) :
    (load (some a) i >>= f).Leads N s Q := by
  refine (leads_load h ?_ ⟨rfl, rfl⟩ : (load (some a) i).Leads N s _).then hf
  simp [hi]

/-- Overwriting a value. -/
lemma leads_store_bind {k : ℕ} {v : α} {xs : List α} {f : Unit → Command α β}
    {Q : β → Store α → Prop} (h : s.Holds a xs) (hk : k < xs.length)
    (hf : (f ()).Leads N (s.after a (xs.set k v) 0) Q) :
    (store (some a) k v >>= f).Leads N s Q := by
  refine (leads_store h (by simpa using hk) ⟨rfl, ?_⟩ : (store (some a) k v).Leads N s _).then hf
  simp [Store.set, Store.after, List.map_set]

/-- Copying into a whole block. -/
lemma leads_memcpy_bind {a' off n : ℕ} {xs : List α} {b' : Block α} {f : Unit → Command α β}
    {Q : β → Store α → Prop} (h : s.Holds a xs) (h' : s.heap a' = some b')
    (hoff : off + n ≤ xs.length) (hn : b'.length = n)
    (hf : (f ()).Leads N (s.after a' ((xs.drop off).take n) 0) Q) :
    (memcpy (some a') (some a) off n >>= f).Leads N s Q := by
  have hcopy : (memcpy (some a') (some a) off n).Leads N s fun b t =>
      b = () ∧ t = s.after a' ((xs.drop off).take n) 0 := by
    refine leads_memcpy h h' (by simpa using hoff) hn.ge ⟨rfl, ?_⟩
    simp [Store.set, Store.after, List.drop_eq_nil_of_le hn.le]
  exact hcopy.then hf

lemma leads_free_bind {b : Block α} {f : Unit → Command α β} {Q : β → Store α → Prop}
    (h : s.heap a = some b) (hf : (f ()).Leads N (s.set a none) Q) :
    (free (some a) >>= f).Leads N s Q :=
  (leads_free h ⟨rfl, rfl⟩ : (free (some a)).Leads N s _).then hf

/-- A request is met with a new block, or refused. -/
lemma leads_malloc_bind {A : Allocator α} {n : ℕ} {f : Ptr → Command α β}
    {Q : β → Store α → Prop} (hrefused : A.pick s.heap n = none → (f none).Leads N s Q)
    (hmet : ∀ a, s.heap a = none →
      (f (some a)).Leads N (s.set a (some (List.replicate n none))) Q) :
    (malloc A n >>= f).Leads N s Q :=
  Leads.bind (Q := fun p t => (f p).Leads N t Q) (leads_malloc hrefused hmet) fun _ _ h => h

lemma leads_tick_bind {f : Unit → Command α β} {Q : β → Store α → Prop}
    (hf : (f ()).Leads N s.tick Q) : (tick >>= f).Leads N s Q :=
  (leads_tick ⟨rfl, rfl⟩ : (tick : Command α Unit).Leads N s _).then hf

end Operations

end Command

end BlockHeap
