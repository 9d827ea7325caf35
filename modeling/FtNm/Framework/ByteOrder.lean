import Mathlib.Tactic

/-!
# Fixed-width naturals in either byte order

A natural below `256 ^ w` is stored as `w` bytes, least significant byte first
(`ByteOrder.little`) or most significant byte first (`ByteOrder.big`).

* `encode` is the writer, for both orders; `ofBytes` reads a byte string back least
  significant byte first.
* `ofBytes_encode_little` is the round trip.
* `swapped w v` is what a little-endian reader makes of a big-endian `v`; `ofBytes_encode_big`
  says so, and `encode_big_eq_little` says that the two encodings of `v` coincide when
  `swapped w v = v`.
-/

/-- The order in which the bytes of a number are stored. -/
inductive ByteOrder
  | little
  | big
  deriving DecidableEq, Repr

namespace ByteOrder

/-- The `w` bytes of `v`, least significant first. -/
def toBytes : ℕ → ℕ → List UInt8
  | 0, _ => []
  | w + 1, v => UInt8.ofNat v :: toBytes w (v / 256)

/-- The number whose bytes, least significant first, are given. -/
def ofBytes : List UInt8 → ℕ
  | [] => 0
  | b :: bs => b.toNat + 256 * ofBytes bs

/-- The `w` bytes of `v` in the given order. -/
def encode : ByteOrder → ℕ → ℕ → List UInt8
  | .little, w, v => toBytes w v
  | .big, w, v => (toBytes w v).reverse

/-- What a little-endian reader makes of the `w` bytes of `v` stored most significant first. -/
def swapped (w v : ℕ) : ℕ := ofBytes (encode .big w v)

@[simp] lemma length_toBytes (w v : ℕ) : (toBytes w v).length = w := by
  induction w generalizing v with
  | zero => rfl
  | succ w ih => simp [toBytes, ih]

@[simp] lemma length_encode (o : ByteOrder) (w v : ℕ) : (o.encode w v).length = w := by
  cases o <;> simp [encode]

lemma ofBytes_toBytes (w v : ℕ) : ofBytes (toBytes w v) = v % 256 ^ w := by
  induction w generalizing v with
  | zero => simp [toBytes, ofBytes, Nat.mod_one]
  | succ w ih =>
    have hhead : (UInt8.ofNat v).toNat = v % 256 := by simp
    rw [toBytes, ofBytes, ih, hhead, pow_succ', Nat.mod_mul]

lemma toBytes_ofBytes (bs : List UInt8) : toBytes bs.length (ofBytes bs) = bs := by
  induction bs with
  | nil => rfl
  | cons b bs ih =>
    have hb : b.toNat < 256 := b.toNat_lt
    have hdiv : (b.toNat + 256 * ofBytes bs) / 256 = ofBytes bs := by omega
    have hhead : UInt8.ofNat (b.toNat + 256 * ofBytes bs) = b := by
      apply UInt8.toNat_inj.mp
      simp only [UInt8.toNat_ofNat']
      omega
    rw [List.length_cons, ofBytes, toBytes, hdiv, ih, hhead]

/-- **Round trip.**  A number that fits its width is read back from its little-endian bytes. -/
lemma ofBytes_encode_little {w v : ℕ} (h : v < 256 ^ w) : ofBytes (encode .little w v) = v := by
  rw [encode, ofBytes_toBytes, Nat.mod_eq_of_lt h]

/-- Reading big-endian bytes least significant first gives the swapped number. -/
lemma ofBytes_encode_big (w v : ℕ) : ofBytes (encode .big w v) = swapped w v := rfl

/-- A number that reads the same in both orders has the same bytes in both orders. -/
lemma encode_big_eq_little {w v : ℕ} (h : swapped w v = v) :
    encode .big w v = encode .little w v := by
  have hbytes := toBytes_ofBytes (encode .big w v)
  rw [length_encode, ofBytes_encode_big, h] at hbytes
  exact hbytes.symm

lemma ofBytes_eq_zero {bs : List UInt8} : ofBytes bs = 0 ↔ ∀ b ∈ bs, b = 0 := by
  induction bs with
  | nil => simp [ofBytes]
  | cons b bs ih =>
    have hb : b.toNat = 0 ↔ b = 0 := by rw [← UInt8.toNat_inj, UInt8.toNat_zero]
    rw [ofBytes, List.forall_mem_cons, ← ih, ← hb]
    omega

/-- A number is zero in one order when it is in the other. -/
lemma swapped_eq_zero {w v : ℕ} (h : v < 256 ^ w) : swapped w v = 0 ↔ v = 0 := by
  have hlittle : ofBytes (encode .little w v) = 0 ↔ ∀ b ∈ encode .little w v, b = 0 :=
    ofBytes_eq_zero
  rw [ofBytes_encode_little h] at hlittle
  rw [swapped, ofBytes_eq_zero, hlittle]
  simp [encode]

lemma swapped_one (v : ℕ) : swapped 1 v = v % 256 := by
  simp [swapped, encode, toBytes, ofBytes]

end ByteOrder
