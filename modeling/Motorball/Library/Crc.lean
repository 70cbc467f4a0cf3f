import Mathlib.Algebra.Ring.Parity
import Mathlib.Data.Finset.Fold
import Mathlib.Data.Finset.Max
import Mathlib.Logic.Function.Iterate
import Mathlib.Order.Fin.Basic

/-!
# Eight-bit cyclic redundancy checks, most significant bit first

The bitwise loop over a byte list, with the generator polynomial (its leading bit left out) as a
parameter, initial remainder zero and no final xor.

A shift of the remainder is linear in exclusive or (`shift_xor`), so the checksum is (`crc8_xor`),
and a message fits its checksum exactly when the two together leave no residue (`crc8_eq_iff`). An
error that is added to them goes unnoticed exactly when it leaves no residue itself, and its residue
is the sum of those of its bits (`residue_pattern`). The last section says which patterns always
leave one: an odd number of bits if the polynomial has an even number of terms, two bits nearer than
its order, and a burst no longer than a byte.
-/

namespace Crc

/-- One shift of the remainder: the bit that falls off decides whether the polynomial is added. -/
def shift (poly crc : UInt8) : UInt8 :=
  if crc &&& 0x80 ≠ 0 then (crc <<< 1) ^^^ poly else crc <<< 1

/-- One byte: added to the remainder, then shifted through, most significant bit first. -/
def absorb (poly crc byte : UInt8) : UInt8 := (shift poly)^[8] (crc ^^^ byte)

/-- The remainder of a byte list, from zero and with no final addition. -/
def crc8 (poly : UInt8) (bytes : List UInt8) : UInt8 := bytes.foldl (absorb poly) 0

variable {poly : UInt8}

/-! ## A shift is linear -/

/-- The bit a shift drops, on which the shift branches. -/
def top (crc : UInt8) : Bool := crc.toBitVec.getLsbD 7

theorem top_iff (crc : UInt8) : crc &&& 0x80 ≠ 0 ↔ top crc = true := by
  have bytes : ∀ n < 256, UInt8.ofNat n &&& 0x80 ≠ 0 ↔ top (UInt8.ofNat n) = true := by
    decide +kernel
  simpa using bytes crc.toNat crc.toNat_lt

theorem shift_of_top {crc : UInt8} (h : top crc = true) : shift poly crc = (crc <<< 1) ^^^ poly :=
  if_pos ((top_iff crc).mpr h)

theorem shift_of_not_top {crc : UInt8} (h : top crc = false) : shift poly crc = crc <<< 1 :=
  if_neg fun set => by rw [(top_iff crc).mp set] at h; cases h

@[simp] theorem shift_zero : shift poly 0 = 0 := rfl

theorem top_xor (a b : UInt8) : top (a ^^^ b) = (top a ^^ top b) := by
  simp [top]

theorem shiftLeft_xor (a b : UInt8) : (a ^^^ b) <<< 1 = a <<< 1 ^^^ b <<< 1 := by
  apply UInt8.toBitVec_inj.mp
  simp [BitVec.shiftLeft_xor_distrib]

/-- A shift keeps sums: the branches on the dropped bits add up like the bits. -/
theorem shift_xor (a b : UInt8) : shift poly (a ^^^ b) = shift poly a ^^^ shift poly b := by
  have hsum := top_xor a b
  cases ha : top a with
  | false =>
    cases hb : top b with
    | false =>
      rw [ha, hb] at hsum
      rw [shift_of_not_top ha, shift_of_not_top hb, shift_of_not_top hsum, shiftLeft_xor]
    | true =>
      rw [ha, hb] at hsum
      rw [shift_of_not_top ha, shift_of_top hb, shift_of_top hsum, shiftLeft_xor, UInt8.xor_assoc]
  | true =>
    cases hb : top b with
    | false =>
      rw [ha, hb] at hsum
      rw [shift_of_top ha, shift_of_not_top hb, shift_of_top hsum, shiftLeft_xor]
      ac_rfl
    | true =>
      rw [ha, hb] at hsum
      rw [shift_of_top ha, shift_of_top hb, shift_of_not_top hsum, shiftLeft_xor, UInt8.xor_assoc,
        UInt8.xor_comm (b <<< 1), ← UInt8.xor_assoc poly, UInt8.xor_self, UInt8.zero_xor]

/-- So does any number of shifts. -/
theorem shifts_xor (n : Nat) (a b : UInt8) :
    (shift poly)^[n] (a ^^^ b) = (shift poly)^[n] a ^^^ (shift poly)^[n] b := by
  induction n generalizing a b with
  | zero => rfl
  | succ n ih => rw [Function.iterate_succ_apply, shift_xor, ih]; rfl

@[simp] theorem shifts_zero (n : Nat) : (shift poly)^[n] 0 = 0 :=
  Function.iterate_fixed shift_zero n

/-- A polynomial with a constant term loses nothing in a shift, for the low bit of the result says
whether it was added. -/
theorem shift_injective (unit : poly &&& 1 = 1) : Function.Injective (shift poly) := by
  have kernel : ∀ c : UInt8, shift poly c = 0 → c = 0 := by
    intro c h
    cases hc : top c with
    | true =>
      rw [shift_of_top hc, UInt8.xor_eq_zero_iff] at h
      have even : ∀ n < 256, (UInt8.ofNat n <<< 1) &&& 1 = 0 := by decide +kernel
      have low := even c.toNat c.toNat_lt
      rw [UInt8.ofNat_toNat, h, unit] at low
      cases low
    | false =>
      rw [shift_of_not_top hc] at h
      have bytes : ∀ n < 256, top (UInt8.ofNat n) = false → UInt8.ofNat n <<< 1 = 0 →
          UInt8.ofNat n = 0 := by
        decide +kernel
      have whole := bytes c.toNat c.toNat_lt
      rw [UInt8.ofNat_toNat] at whole
      exact whole hc h
  intro a b h
  have difference := kernel (a ^^^ b)
  rw [shift_xor, UInt8.xor_eq_zero_iff, UInt8.xor_eq_zero_iff] at difference
  exact difference h

theorem low_xor (a b : UInt8) : (a ^^^ b) &&& 1 = (a &&& 1) ^^^ (b &&& 1) := by
  apply UInt8.toBitVec_inj.mp
  ext i
  simp [Bool.and_xor_distrib_right]

/-! ## The residue of a message with its checksum -/

/-- The remainder of a byte list as a polynomial, with no room made for a checksum; of a message
with its checksum it is zero. -/
def residue (poly : UInt8) (bytes : List UInt8) : UInt8 :=
  bytes.foldl (fun r b => (shift poly)^[8] r ^^^ b) 0

/-- One more byte moves the remainder by eight places. -/
theorem residue_snoc (bytes : List UInt8) (b : UInt8) :
    residue poly (bytes ++ [b]) = (shift poly)^[8] (residue poly bytes) ^^^ b :=
  List.foldl_concat ..

/-- Leading zeros do not count. -/
theorem residue_zero_cons (bytes : List UInt8) :
    residue poly (0 :: bytes) = residue poly bytes := by
  rw [residue, List.foldl_cons, shifts_zero, UInt8.xor_zero, residue]

theorem residue_zeros (n : Nat) : residue poly (List.replicate n 0) = 0 := by
  induction n with
  | zero => rfl
  | succ n ih => rw [List.replicate_succ', residue_snoc, ih, shifts_zero, UInt8.xor_self]

theorem crc8_eq_residue (bytes : List UInt8) :
    crc8 poly bytes = (shift poly)^[8] (residue poly bytes) := by
  induction bytes using List.reverseRecOn with
  | nil => exact (shifts_zero 8).symm
  | append_singleton bytes b ih =>
    rw [residue_snoc, ← ih]
    exact List.foldl_concat ..

/-- A checksum fits exactly when the whole has no residue. -/
theorem crc8_eq_iff (bytes : List UInt8) (c : UInt8) :
    crc8 poly bytes = c ↔ residue poly (bytes ++ [c]) = 0 := by
  rw [residue_snoc, UInt8.xor_eq_zero_iff, crc8_eq_residue]

/-- The residue is linear on byte lists of one length. -/
theorem residue_xor {x y : List UInt8} (same : x.length = y.length) :
    residue poly (List.zipWith (· ^^^ ·) x y) = residue poly x ^^^ residue poly y := by
  induction x using List.reverseRecOn generalizing y with
  | nil =>
    obtain rfl := List.length_eq_zero_iff.mp same.symm
    exact UInt8.xor_self.symm
  | append_singleton x a ih =>
    rcases List.eq_nil_or_concat y with rfl | ⟨y, b, rfl⟩
    · simp at same
    · rw [List.concat_eq_append] at *
      have same' : x.length = y.length := by simpa using same
      rw [List.zipWith_append same', List.zipWith_cons_cons, List.zipWith_nil_left, residue_snoc,
        residue_snoc, residue_snoc, ih same', shifts_xor]
      ac_rfl

/-- **The checksum is linear** on byte lists of one length, so whether an error is found depends on
the error alone and not on the message. -/
theorem crc8_xor {x y : List UInt8} (same : x.length = y.length) :
    crc8 poly (List.zipWith (· ^^^ ·) x y) = crc8 poly x ^^^ crc8 poly y := by
  rw [crc8_eq_residue, crc8_eq_residue, crc8_eq_residue, residue_xor same, shifts_xor]

/-! ## Sums over a set of bits -/

section Sum

variable {ι : Type*} [DecidableEq ι] {s : Finset ι} {f : ι → UInt8}

/-- The exclusive or of a family of bytes. -/
def xorSum (s : Finset ι) (f : ι → UInt8) : UInt8 := s.fold (· ^^^ ·) 0 f

omit [DecidableEq ι] in
@[simp] theorem xorSum_empty : xorSum ∅ f = 0 := Finset.fold_empty

theorem xorSum_insert {i : ι} (fresh : i ∉ s) : xorSum (insert i s) f = f i ^^^ xorSum s f :=
  Finset.fold_insert fresh

/-- What keeps zero and exclusive or keeps sums of a family. -/
theorem xorSum_map {g : UInt8 → UInt8} (zero : g 0 = 0)
    (add : ∀ a b, g (a ^^^ b) = g a ^^^ g b) : g (xorSum s f) = xorSum s fun i => g (f i) := by
  induction s using Finset.induction_on with
  | empty => exact zero
  | insert i s fresh ih => rw [xorSum_insert fresh, xorSum_insert fresh, add, ih]

theorem xorSum_eq_zero (zero : ∀ i ∈ s, f i = 0) : xorSum s f = 0 := by
  induction s using Finset.induction_on with
  | empty => exact xorSum_empty
  | insert i s fresh ih =>
    rw [xorSum_insert fresh, zero i (Finset.mem_insert_self i s), UInt8.zero_xor]
    exact ih fun j hj => zero j (Finset.mem_insert_of_mem hj)

end Sum

/-- The powers of two below the polynomial, where no shift drops a bit yet. -/
theorem shifts_one {k : Nat} (h : k < 8) : (shift poly)^[k] 1 = 1 <<< UInt8.ofNat k := by
  induction k with
  | zero => rfl
  | succ k ih =>
    have low : ∀ k < 7, top (1 <<< UInt8.ofNat k) = false ∧
        (1 <<< UInt8.ofNat k) <<< 1 = (1 : UInt8) <<< UInt8.ofNat (k + 1) := by decide
    obtain ⟨htop, next⟩ := low k (by omega)
    rw [Function.iterate_succ_apply', ih (by omega), shift_of_not_top htop, next]

/-! ## Error patterns -/

/-- What bit `p` of a message, most significant first, is in its byte `i`. -/
def bitAt (i p : Nat) : UInt8 := if p / 8 = i then 0x80 >>> UInt8.ofNat (p % 8) else 0

/-- The message of `n` bytes with these bits set, numbered from the most significant one of the
first byte. -/
def pattern (n : Nat) (bits : Finset (Fin (8 * n))) : List UInt8 :=
  (List.range n).map fun i => xorSum bits fun p => bitAt i p

/-- The residue of a single bit: one, shifted as often as there are bits behind it. -/
theorem residue_bit {n p : Nat} (h : p < 8 * n) :
    residue poly ((List.range n).map fun i => bitAt i p) = (shift poly)^[8 * n - 1 - p] 1 := by
  induction n with
  | zero => omega
  | succ n ih =>
    rw [List.range_succ, List.map_append, List.map_singleton, residue_snoc]
    rcases Nat.lt_or_ge p (8 * n) with earlier | here
    · have rest : 8 * (n + 1) - 1 - p = 8 + (8 * n - 1 - p) := by omega
      rw [ih earlier, bitAt, if_neg (by omega), UInt8.xor_zero, rest, Function.iterate_add_apply]
    · have zeros : (List.range n).map (fun i => bitAt i p) = List.replicate n 0 := by
        rw [List.eq_replicate_iff]
        refine ⟨by simp, ?_⟩
        intro b hb
        obtain ⟨i, hi, rfl⟩ := List.mem_map.mp hb
        have := List.mem_range.mp hi
        exact if_neg (by omega)
      have mirrored : ∀ k < 8, (0x80 : UInt8) >>> UInt8.ofNat k = 1 <<< UInt8.ofNat (7 - k) := by
        decide
      have rest : 8 * (n + 1) - 1 - p = 7 - p % 8 := by omega
      rw [zeros, residue_zeros, shifts_zero, UInt8.zero_xor, bitAt, if_pos (by omega), rest,
        shifts_one (by omega), mirrored _ (Nat.mod_lt _ (by decide))]

/-- **The residue of an error pattern** is the sum of the residues of its bits. -/
theorem residue_pattern {n : Nat} (bits : Finset (Fin (8 * n))) :
    residue poly (pattern n bits) = xorSum bits fun p => (shift poly)^[8 * n - 1 - p] 1 := by
  induction bits using Finset.induction_on with
  | empty =>
    simp only [pattern, xorSum_empty, List.map_const', List.length_range]
    exact residue_zeros n
  | insert p bits fresh ih =>
    have split : pattern n (insert p bits) =
        List.zipWith (· ^^^ ·) ((List.range n).map fun i => bitAt i p) (pattern n bits) := by
      rw [pattern, pattern, List.zipWith_map, List.zipWith_self]
      simp only [xorSum_insert fresh]
    rw [split, residue_xor (by simp [pattern]), residue_bit p.isLt, ih, xorSum_insert fresh]

/-! ## The patterns that leave a residue -/

/-- The parity of the low bits of a byte. -/
def parityBelow : Nat → UInt8 → Bool
  | 0, _ => false
  | n + 1, b => parityBelow n b ^^ b.toBitVec.getLsbD n

/-- The parity of a byte: whether an odd number of its bits are set. -/
def parity (b : UInt8) : Bool := parityBelow 8 b

/-- Parities add up. -/
theorem parity_xor (a b : UInt8) : parity (a ^^^ b) = (parity a ^^ parity b) := by
  have below : ∀ n, parityBelow n (a ^^^ b) = (parityBelow n a ^^ parityBelow n b) := by
    intro n
    induction n with
    | zero => rfl
    | succ n ih =>
      rw [parityBelow, parityBelow, parityBelow, ih, UInt8.toBitVec_xor, BitVec.getLsbD_xor]
      simp only [Bool.xor_assoc, Bool.xor_left_comm]
  exact below 8

/-- A polynomial with an even number of terms keeps the parity of the remainder. -/
theorem parity_shift (even : parity poly = true) (crc : UInt8) :
    parity (shift poly crc) = parity crc := by
  have bytes : ∀ n < 256, parity (UInt8.ofNat n <<< 1) =
      (parity (UInt8.ofNat n) ^^ top (UInt8.ofNat n)) := by decide +kernel
  have lost := bytes crc.toNat crc.toNat_lt
  rw [UInt8.ofNat_toNat] at lost
  cases h : top crc with
  | true => rw [shift_of_top h, parity_xor, lost, h, even]; simp
  | false => rw [shift_of_not_top h, lost, h, Bool.xor_false]

/-- **An odd number of bits** leaves a residue, if the polynomial has an even number of terms: then
every power has odd parity, and so has their sum. -/
theorem residue_odd (even : parity poly = true) {n : Nat} {bits : Finset (Fin (8 * n))}
    (odd : Odd bits.card) : residue poly (pattern n bits) ≠ 0 := by
  have ones : ∀ k, parity ((shift poly)^[k] 1) = true := by
    intro k
    induction k with
    | zero => exact (by decide : parity 1 = true)
    | succ k ih => rw [Function.iterate_succ_apply', parity_shift even, ih]
  have counted : parity (residue poly (pattern n bits)) = decide (Odd bits.card) := by
    rw [residue_pattern]
    clear odd
    induction bits using Finset.induction_on with
    | empty => simp [parity, parityBelow]
    | insert p bits fresh ih =>
      rw [xorSum_insert fresh, parity_xor, ones, ih, Finset.card_insert_of_notMem fresh]
      simp only [Nat.odd_add_one, decide_not, Bool.true_xor]
  intro none
  rw [none, decide_eq_true odd] at counted
  cases counted

/-- **Two bits** leave a residue, if no shift of one shorter than the message is one again: the two
powers would have to be equal. -/
theorem residue_pair (unit : poly &&& 1 = 1) {n : Nat}
    (order : ∀ d < 8 * n, 0 < d → (shift poly)^[d] 1 ≠ 1) {bits : Finset (Fin (8 * n))}
    (two : bits.card = 2) : residue poly (pattern n bits) ≠ 0 := by
  have ahead : ∀ p q : Fin (8 * n), p < q →
      (shift poly)^[8 * n - 1 - p] 1 ≠ (shift poly)^[8 * n - 1 - q] 1 := by
    intro p q later same
    have hp := p.isLt
    have hq := q.isLt
    have hlt : (p : Nat) < q := later
    have gap : 8 * n - 1 - (p : Nat) = 8 * n - 1 - q + (q - p) := by omega
    rw [gap, Function.iterate_add_apply] at same
    exact order (q - p) (by omega) (by omega) ((shift_injective unit).iterate _ same)
  obtain ⟨p, q, distinct, rfl⟩ := Finset.card_eq_two.mp two
  rw [residue_pattern, xorSum_insert (by simpa using distinct), ← insert_empty_eq,
    xorSum_insert (Finset.notMem_empty q), xorSum_empty, UInt8.xor_zero, ne_eq,
    UInt8.xor_eq_zero_iff]
  rcases lt_or_gt_of_ne distinct with later | later
  · exact ahead p q later
  · exact (ahead q p later).symm

/-- **A burst of eight bits** leaves a residue: up to a shift, which loses nothing, it is the byte
of its bits, and that is not zero. -/
theorem residue_burst (unit : poly &&& 1 = 1) {n : Nat} {bits : Finset (Fin (8 * n))}
    (nonempty : bits.Nonempty) (burst : ∀ p ∈ bits, ∀ q ∈ bits, (q : Nat) < p + 8) :
    residue poly (pattern n bits) ≠ 0 := by
  obtain ⟨m, hm, last⟩ := bits.exists_max_image id nonempty
  -- The residue is that of the burst moved to the end of the message, shifted back.
  have moved : residue poly (pattern n bits) =
      (shift poly)^[8 * n - 1 - m] (xorSum bits fun p => 1 <<< UInt8.ofNat (m - p)) := by
    rw [residue_pattern, xorSum_map (shifts_zero _) (shifts_xor _)]
    apply Finset.fold_congr
    intro p hp
    have hle : (p : Nat) ≤ m := last p hp
    have hlt := m.isLt
    have gap : 8 * n - 1 - (p : Nat) = 8 * n - 1 - m + (m - p) := by omega
    have near := burst p hp m hm
    rw [gap, Function.iterate_add_apply, shifts_one (by omega)]
  have odd : (xorSum bits fun p => 1 <<< UInt8.ofNat (m - p)) &&& 1 = 1 := by
    have low : ∀ k < 8, (1 <<< UInt8.ofNat k) &&& 1 = if k = 0 then (1 : UInt8) else 0 := by
      decide
    have rest : (xorSum (bits.erase m) fun p => 1 <<< UInt8.ofNat (m - p)) &&& 1 = 0 := by
      rw [xorSum_map (g := (· &&& 1)) UInt8.zero_and low_xor]
      apply xorSum_eq_zero
      intro p hp
      obtain ⟨other, hp⟩ := Finset.mem_erase.mp hp
      have hle : (p : Nat) ≤ m := last p hp
      have hne : (p : Nat) ≠ m := fun h => other (Fin.ext h)
      have near := burst p hp m hm
      rw [low _ (by omega), if_neg (by omega)]
    rw [← Finset.insert_erase hm, xorSum_insert (Finset.notMem_erase m bits),
      low_xor, rest, Nat.sub_self]
    decide
  intro none
  rw [moved] at none
  have zero := (shift_injective unit).iterate _ (none.trans (shifts_zero _).symm)
  rw [zero] at odd
  cases odd

end Crc
