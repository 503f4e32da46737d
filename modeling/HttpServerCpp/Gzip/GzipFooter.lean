import HttpServerCpp.Gzip.GzipHeader

/-!
# The footer of a gzip member

`gzip_footer::process` of `gzip.cpp`: the checksum and the size of the data, four octets each.
The type of the two numbers is declared in a header that is not part of the repository; its width
is the parameter `w`.

`footer_exact`: eight octets are read, and each number is right exactly when it is below `2 ^ 31`
or `w` is `32`.  In a wider type the fourth octet is extended by its sign.
-/

namespace HttpServer

/-- The states of `gzip_footer`. -/
inductive FooterState where
  | crc | isize | done
deriving DecidableEq

/-- `gzip_footer`. -/
structure GzipFooter (w : Nat) where
  crc : BitVec w
  isize : BitVec w
  state : FooterState
  offset : Nat
deriving DecidableEq

namespace GzipFooter

variable {w : Nat}

/-- `gzip_footer::reset`. -/
def reset (w : Nat) : GzipFooter w := ⟨0, 0, .crc, 0⟩

/-- `gzip_footer::process`. -/
def process (f : GzipFooter w) (value : UInt8) : Except GzipFailure (GzipFooter w) :=
  match f.state with
  | .crc =>
      let f := { f with crc := f.crc + BitVec.ofInt w (shiftedByte value f.offset).toInt }
      .ok (if f.offset = 3 then { f with state := .isize, offset := 0 }
        else { f with offset := f.offset + 1 })
  | .isize =>
      let f := { f with isize := f.isize + BitVec.ofInt w (shiftedByte value f.offset).toInt }
      .ok (if f.offset = 3 then { f with state := .done, offset := 0 }
        else { f with offset := f.offset + 1 })
  | .done => .error .assertion

/-- `gzip_footer::done`. -/
def isDone (f : GzipFooter w) : Prop := f.state = .done

/-- The octets complete the footer. -/
def Completes (f : GzipFooter w) (bs : List UInt8) (t : GzipFooter w) : Prop :=
  Finishes process isDone f bs t

section Sections

variable {f t : GzipFooter w} {bs : List UInt8}

lemma completes_crc : Completes { f with state := .crc, offset := 0 } bs t ↔
    ∃ crc rest, bs = crc ++ rest ∧ crc.length = 4 ∧
      Completes { f with
        crc := f.crc + BitVec.ofInt w (shiftedSumInt 0 crc), state := .isize, offset := 0 }
        rest t := by
  let stage : List UInt8 → GzipFooter w := fun xs =>
    { f with
      crc := f.crc + BitVec.ofInt w (shiftedSumInt 0 xs)
      offset := if xs.length < 4 then xs.length else 0
      state := if xs.length < 4 then .crc else .isize }
  have hfirst : stage [] = { f with state := .crc, offset := 0 } := by
    simp [stage, shiftedSumInt]
  have hstep : ∀ xs b, xs.length < 4 → process (stage xs) b = .ok (stage (xs ++ [b])) := by
    intro xs b hxs
    by_cases hfull : xs.length = 3
    · simp [stage, process, hfull, shiftedSumInt_snoc, BitVec.ofInt_add, BitVec.add_assoc]
    · have hshort : xs.length + 1 < 4 := by omega
      simp [stage, process, hxs, hfull, hshort, shiftedSumInt_snoc, BitVec.ofInt_add,
        BitVec.add_assoc]
  rw [← hfirst]
  exact finishes_counted (fun xs hxs => by simp [stage, isDone, hxs]) hstep
    (fun xs hxs => by simp [stage, hxs]) bs

lemma completes_isize : Completes { f with state := .isize, offset := 0 } bs t ↔
    ∃ isize rest, bs = isize ++ rest ∧ isize.length = 4 ∧
      Completes { f with
        isize := f.isize + BitVec.ofInt w (shiftedSumInt 0 isize), state := .done, offset := 0 }
        rest t := by
  let stage : List UInt8 → GzipFooter w := fun xs =>
    { f with
      isize := f.isize + BitVec.ofInt w (shiftedSumInt 0 xs)
      offset := if xs.length < 4 then xs.length else 0
      state := if xs.length < 4 then .isize else .done }
  have hfirst : stage [] = { f with state := .isize, offset := 0 } := by
    simp [stage, shiftedSumInt]
  have hstep : ∀ xs b, xs.length < 4 → process (stage xs) b = .ok (stage (xs ++ [b])) := by
    intro xs b hxs
    by_cases hfull : xs.length = 3
    · simp [stage, process, hfull, shiftedSumInt_snoc, BitVec.ofInt_add, BitVec.add_assoc]
    · have hshort : xs.length + 1 < 4 := by omega
      simp [stage, process, hxs, hfull, hshort, shiftedSumInt_snoc, BitVec.ofInt_add,
        BitVec.add_assoc]
  rw [← hfirst]
  exact finishes_counted (fun xs hxs => by simp [stage, isDone, hxs]) hstep
    (fun xs hxs => by simp [stage, hxs]) bs

lemma completes_done : Completes { f with state := .done, offset := 0 } bs t ↔
    bs = [] ∧ t = { f with state := .done, offset := 0 } := by
  refine finishes_done ?_ (fun b => ⟨.assertion, ?_⟩) bs
  · simp [isDone]
  · simp [process]

end Sections

/-- A number of the footer as it is stored. -/
def stored (w : Nat) (octets : List UInt8) : BitVec w := BitVec.ofInt w (signedTime octets)

lemma signedTime_eq {octets : List UInt8} (hlength : octets.length = 4) :
    littleEndian octets < 4294967296 ∧ signedTime octets =
      if littleEndian octets < 2147483648 then (littleEndian octets : Int)
      else littleEndian octets - 4294967296 := by
  match octets, hlength with
  | [a, b, c, d], _ =>
      have ha := a.toNat_lt
      have hb := b.toNat_lt
      have hc := c.toNat_lt
      have hd := d.toNat_lt
      simp only [signedTime, littleEndian, BitVec.toInt_eq_toNat_cond, BitVec.toNat_ofNat,
        Nat.reducePow]
      refine ⟨by omega, ?_⟩
      split_ifs <;> omega

/-- It is the number that was sent, unless its sign is extended. -/
lemma toNat_stored {octets : List UInt8} (hw : 32 ≤ w) (hlength : octets.length = 4) :
    (stored w octets).toNat = littleEndian octets ↔
      w = 32 ∨ littleEndian octets < 2147483648 := by
  obtain ⟨hlt, hsigned⟩ := signedTime_eq hlength
  rw [stored, BitVec.toNat_ofInt, hsigned]
  rcases Nat.eq_or_lt_of_le hw with rfl | hwide
  · simp only [true_or, iff_true, Nat.reducePow]
    split_ifs <;> omega
  · have hpow : 8589934592 ≤ 2 ^ w := Nat.pow_le_pow_right (by decide : 0 < 2) hwide
    generalize hmodulus : 2 ^ w = modulus at hpow ⊢
    have hne : w ≠ 32 := by omega
    split_ifs with hsmall
    · have hmod : (littleEndian octets : Int) % modulus = littleEndian octets :=
        Int.emod_eq_of_lt (by omega) (by omega)
      simp [hmod, hsmall]
    · have hmod : ((littleEndian octets : Int) - 4294967296) % modulus =
          littleEndian octets - 4294967296 + modulus := by
        rw [← Int.add_emod_right, Int.emod_eq_of_lt (by omega) (by omega)]
      rw [hmod]
      omega

/-- **The footer.**  Eight octets complete it. -/
theorem footer_exact (w : Nat) (hw : 32 ≤ w) (bs : List UInt8) (t : GzipFooter w) :
    (Completes (reset w) bs t ↔ ∃ crc isize, bs = crc ++ isize ∧ crc.length = 4 ∧
      isize.length = 4 ∧ t = ⟨stored w crc, stored w isize, .done, 0⟩) ∧
    ∀ octets : List UInt8, octets.length = 4 →
      ((stored w octets).toNat = littleEndian octets ↔
        w = 32 ∨ littleEndian octets < 2147483648) := by
  refine ⟨?_, fun octets hlength => toNat_stored hw hlength⟩
  have hsum : ∀ {octets : List UInt8}, octets.length = 4 →
      (0 : BitVec w) + BitVec.ofInt w (shiftedSumInt 0 octets) = stored w octets := by
    intro octets hlength
    rw [shiftedSumInt_four hlength, stored]
    exact BitVec.zero_add _
  have hcrc := @completes_crc w (reset w) t
  have hisize := fun crc bs => @completes_isize w { reset w with crc := crc } t bs
  have hdone := fun crc isize bs =>
    @completes_done w { reset w with crc := crc, isize := isize } t bs
  constructor
  · intro h
    obtain ⟨crc, rest, rfl, hlength, hrest⟩ := (@hcrc bs).mp h
    rw [show (reset w).crc = 0 from rfl, hsum hlength] at hrest
    obtain ⟨isize, rest, rfl, hlength', hrest⟩ := (hisize (stored w crc) rest).mp hrest
    rw [show (reset w).isize = 0 from rfl, hsum hlength'] at hrest
    obtain ⟨rfl, rfl⟩ := (hdone (stored w crc) (stored w isize) rest).mp hrest
    exact ⟨crc, isize, by simp, hlength, hlength', rfl⟩
  · rintro ⟨crc, isize, rfl, hlength, hlength', rfl⟩
    refine (@hcrc _).mpr ⟨crc, isize, rfl, hlength, ?_⟩
    rw [show (reset w).crc = 0 from rfl, hsum hlength]
    refine (hisize (stored w crc) _).mpr ⟨isize, [], by simp, hlength', ?_⟩
    rw [show (reset w).isize = 0 from rfl, hsum hlength']
    exact (hdone (stored w crc) (stored w isize) []).mpr ⟨rfl, rfl⟩

/-- A checksum of `0x80000000` read into a number of 64 bits. -/
theorem footer_exact_wide :
    Completes (reset 64) [0, 0, 0, 0x80, 1, 0, 0, 0]
      ⟨stored 64 [0, 0, 0, 0x80], stored 64 [1, 0, 0, 0], .done, 0⟩ ∧
    (stored 64 [0, 0, 0, 0x80]).toNat ≠ littleEndian [0, 0, 0, 0x80] := by
  obtain ⟨hcompletes, hvalue⟩ := footer_exact 64 (by decide) [0, 0, 0, 0x80, 1, 0, 0, 0]
    ⟨stored 64 [0, 0, 0, 0x80], stored 64 [1, 0, 0, 0], .done, 0⟩
  refine ⟨hcompletes.mpr ⟨_, _, rfl, rfl, rfl, rfl⟩, fun h => ?_⟩
  exact absurd ((hvalue _ rfl).mp h) (by decide)

end GzipFooter

end HttpServer
