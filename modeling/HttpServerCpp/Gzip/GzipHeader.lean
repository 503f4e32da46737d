import HttpServerCpp.Core.Feed

/-!
# The header of a gzip member

`gzip_header::process` of `gzip.cpp`, which is fed a header one octet at a time.  The octets it
compares with and the bits of its flags are named in a header of the library that is not part of
the repository; they are the parameter `GzipConstants`, with the values of RFC 1952 in `rfc1952`.

`MemberHeader` is a header in the sections that RFC 1952 lays out, with their lengths and ends as
fields, and `write` its octets.  What the RFC asks of the contents is not in it, because `process`
does not look at that: that the reserved flags are zero, that the extra field is a list of
subfields, and that the checksum is the one of the header.
`shiftedSumInt_four` and `shiftedSum_two` say which numbers the loops over octets add up.
-/

namespace HttpServer

/-! ## The code -/

/-- `gzip::magic`, `gzip::method` and `gzip::flags`. -/
structure GzipConstants where
  id1 : UInt8
  id2 : UInt8
  deflate : UInt8
  extra : UInt8
  name : UInt8
  comment : UInt8
  headerCrc : UInt8

/-- The numbers of RFC 1952. -/
def rfc1952 : GzipConstants where
  id1 := 0x1f
  id2 := 0x8b
  deflate := 8
  extra := 4
  name := 8
  comment := 16
  headerCrc := 2

/-- Whether a flag is set. -/
def hasFlag (flags mask : UInt8) : Prop := flags &&& mask ≠ 0

instance (flags mask : UInt8) : Decidable (hasFlag flags mask) :=
  inferInstanceAs (Decidable (_ ≠ _))

/-- `value << (offset_ * 8)`: the octet is promoted to `int`. -/
def shiftedByte (value : UInt8) (offset : Nat) : BitVec 32 :=
  BitVec.ofNat 32 value.toNat <<< (8 * offset)

/-- How `process` fails: it throws `gzip_error`, or an assertion does. -/
inductive GzipFailure where
  | badHeader | badMethod | assertion
deriving DecidableEq

/-- The states of `gzip_header`. -/
inductive HeaderState where
  | id1 | id2 | cm | flg | mtime | xfl | os | xlen | extra | name | comment | hcrc | done
deriving DecidableEq

/-- `gzip_header`. -/
structure GzipHeader where
  fileName : List UInt8
  comment : List UInt8
  os : UInt8
  mtime : Int
  flags : UInt8
  state : HeaderState
  offset : Nat
  xlen : BitVec 32
deriving DecidableEq

namespace GzipHeader

/-- `gzip_header::reset`. -/
def reset : GzipHeader := ⟨[], [], 0, 0, 0, .id1, 0, 0⟩

variable (c : GzipConstants)

/-- The state that comes after the comment. -/
def afterComment (flags : UInt8) : HeaderState :=
  if hasFlag flags c.headerCrc then .hcrc else .done

/-- The state that comes after the file name. -/
def afterName (flags : UInt8) : HeaderState :=
  if hasFlag flags c.comment then .comment
  else if hasFlag flags c.headerCrc then .hcrc
  else .done

/-- The state that comes after the extra field. -/
def afterExtra (flags : UInt8) : HeaderState :=
  if hasFlag flags c.name then .name
  else if hasFlag flags c.comment then .comment
  else if hasFlag flags c.headerCrc then .hcrc
  else .done

/-- The state that comes after `OS`. -/
def afterOs (flags : UInt8) : HeaderState :=
  if hasFlag flags c.extra then .xlen
  else if hasFlag flags c.name then .name
  else if hasFlag flags c.comment then .comment
  else if hasFlag flags c.headerCrc then .hcrc
  else .done

/-- `gzip_header::process`. -/
def process (h : GzipHeader) (value : UInt8) : Except GzipFailure GzipHeader :=
  match h.state with
  | .id1 => if value ≠ c.id1 then .error .badHeader else .ok { h with state := .id2 }
  | .id2 => if value ≠ c.id2 then .error .badHeader else .ok { h with state := .cm }
  | .cm => if value ≠ c.deflate then .error .badMethod else .ok { h with state := .flg }
  | .flg => .ok { h with flags := value, state := .mtime }
  | .mtime =>
      let h := { h with mtime := h.mtime + (shiftedByte value h.offset).toInt }
      .ok (if h.offset = 3 then { h with state := .xfl, offset := 0 }
        else { h with offset := h.offset + 1 })
  | .xfl => .ok { h with state := .os }
  | .os => .ok { h with os := value, state := afterOs c h.flags }
  | .xlen =>
      let h := { h with xlen := h.xlen + shiftedByte value h.offset }
      .ok (if h.offset = 1 then { h with state := .extra, offset := 0 }
        else { h with offset := h.offset + 1 })
  | .extra =>
      -- overflow of the signed `xlen_` is undefined in C++; here it wraps
      let h := { h with xlen := h.xlen - 1 }
      .ok (if h.xlen = 0 then { h with state := afterExtra c h.flags } else h)
  | .name =>
      .ok (if value ≠ 0 then { h with fileName := h.fileName ++ [value] }
        else { h with state := afterName c h.flags })
  | .comment =>
      .ok (if value ≠ 0 then { h with comment := h.comment ++ [value] }
        else { h with state := afterComment c h.flags })
  | .hcrc =>
      .ok (if h.offset = 1 then { h with state := .done, offset := 0 }
        else { h with offset := h.offset + 1 })
  | .done => .error .assertion

/-- `gzip_header::done`. -/
def isDone (h : GzipHeader) : Prop := h.state = .done

instance (h : GzipHeader) : Decidable h.isDone := inferInstanceAs (Decidable (_ = _))

end GzipHeader

/-! ## The format -/

/-- The number that octets stand for, the lowest first. -/
def littleEndian : List UInt8 → Nat
  | [] => 0
  | b :: bs => b.toNat + 256 * littleEndian bs

/-- The number that four octets stand for, in two's complement. -/
def signedTime (time : List UInt8) : Int := (BitVec.ofNat 32 (littleEndian time)).toInt

/-- The sections of a member header: its flags say which it has, and those it does not have are
empty.  Reserved flags, the subfields of `extra` and the value of `crc16` are left open. -/
structure MemberHeader (c : GzipConstants) where
  flags : UInt8
  mtime : List UInt8
  xfl : UInt8
  os : UInt8
  xlen : List UInt8
  extra : List UInt8
  fileName : List UInt8
  comment : List UInt8
  crc16 : List UInt8
  mtime_length : mtime.length = 4
  xlen_length : xlen.length = if hasFlag flags c.extra then 2 else 0
  extra_length : extra.length = littleEndian xlen
  fileName_terminated : 0 ∉ fileName
  fileName_absent : ¬ hasFlag flags c.name → fileName = []
  comment_terminated : 0 ∉ comment
  comment_absent : ¬ hasFlag flags c.comment → comment = []
  crc16_length : crc16.length = if hasFlag flags c.headerCrc then 2 else 0

/-- A text and the zero that ends it, if the section is there. -/
def zeroTerminated (present : Prop) [Decidable present] (text : List UInt8) : List UInt8 :=
  if present then text ++ [0] else []

namespace MemberHeader

variable {c : GzipConstants} (m : MemberHeader c)

/-- The octets of the header. -/
def write : List UInt8 :=
  c.id1 :: c.id2 :: c.deflate :: m.flags :: (m.mtime ++ m.xfl :: m.os ::
    (m.xlen ++ (m.extra ++ (zeroTerminated (hasFlag m.flags c.name) m.fileName ++
      (zeroTerminated (hasFlag m.flags c.comment) m.comment ++ m.crc16)))))

/-- What the parser keeps of it.  The time is read as a signed number. -/
def received : GzipHeader where
  fileName := m.fileName
  comment := m.comment
  os := m.os
  mtime := signedTime m.mtime
  flags := m.flags
  state := .done
  offset := 0
  xlen := 0

end MemberHeader

/-! ## Numbers -/

/-- What a loop over the octets of a number adds up, from the given offset on. -/
def shiftedSum : Nat → List UInt8 → BitVec 32
  | _, [] => 0
  | offset, b :: bs => shiftedByte b offset + shiftedSum (offset + 1) bs

/-- The same, when it is added up in a wider signed type. -/
def shiftedSumInt : Nat → List UInt8 → Int
  | _, [] => 0
  | offset, b :: bs => (shiftedByte b offset).toInt + shiftedSumInt (offset + 1) bs

lemma shiftedSum_snoc (bs : List UInt8) (b : UInt8) : ∀ offset,
    shiftedSum offset (bs ++ [b]) = shiftedSum offset bs + shiftedByte b (offset + bs.length) := by
  induction bs with
  | nil => simp [shiftedSum]
  | cons a bs ih =>
      intro offset
      have hlength : offset + 1 + bs.length = offset + (a :: bs).length := by
        simp
        omega
      rw [List.cons_append, shiftedSum, shiftedSum, ih, hlength, BitVec.add_assoc]

lemma shiftedSumInt_snoc (bs : List UInt8) (b : UInt8) : ∀ offset,
    shiftedSumInt offset (bs ++ [b]) =
      shiftedSumInt offset bs + (shiftedByte b (offset + bs.length)).toInt := by
  induction bs with
  | nil => simp [shiftedSumInt]
  | cons a bs ih =>
      intro offset
      have hlength : offset + 1 + bs.length = offset + (a :: bs).length := by
        simp
        omega
      rw [List.cons_append, shiftedSumInt, shiftedSumInt, ih, hlength, Int.add_assoc]

section Shifted

variable (b : UInt8)

lemma toNat_shiftedByte_zero : (shiftedByte b 0).toNat = b.toNat := by
  simp [shiftedByte]

lemma toNat_shiftedByte_one : (shiftedByte b 1).toNat = b.toNat * 256 := by
  have hb := b.toNat_lt
  simp [shiftedByte, Nat.shiftLeft_eq]
  omega

lemma toNat_shiftedByte_two : (shiftedByte b 2).toNat = b.toNat * 65536 := by
  have hb := b.toNat_lt
  simp [shiftedByte, Nat.shiftLeft_eq]
  omega

lemma toNat_shiftedByte_three : (shiftedByte b 3).toNat = b.toNat * 16777216 := by
  have hb := b.toNat_lt
  simp [shiftedByte, Nat.shiftLeft_eq]
  omega

end Shifted

/-- Two octets make a number below `65536`. -/
lemma littleEndian_two {bs : List UInt8} (h : bs.length = 2) : littleEndian bs < 65536 := by
  match bs, h with
  | [a, b], _ =>
      have ha := a.toNat_lt
      have hb := b.toNat_lt
      simp only [littleEndian]
      omega

/-- Two octets make a number as it is. -/
lemma shiftedSum_two {bs : List UInt8} (h : bs.length = 2) :
    shiftedSum 0 bs = BitVec.ofNat 32 (littleEndian bs) := by
  match bs, h with
  | [a, b], _ =>
      have ha := toNat_shiftedByte_zero a
      have hb := toNat_shiftedByte_one b
      simp only [shiftedSum, littleEndian, Nat.zero_add]
      bv_omega

/-- Four octets make a signed number. -/
lemma shiftedSumInt_four {bs : List UInt8} (h : bs.length = 4) :
    shiftedSumInt 0 bs = signedTime bs := by
  match bs, h with
  | [a, b, c, d], _ =>
      have ha := a.toNat_lt
      have hb := b.toNat_lt
      have hc := c.toNat_lt
      have hd := d.toNat_lt
      simp only [shiftedSumInt, signedTime, littleEndian, Nat.zero_add, Nat.reduceAdd,
        BitVec.toInt_eq_toNat_cond, BitVec.toNat_ofNat, toNat_shiftedByte_zero,
        toNat_shiftedByte_one, toNat_shiftedByte_two, toNat_shiftedByte_three, Nat.reducePow]
      split_ifs <;> omega

end HttpServer
