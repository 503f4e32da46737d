import HttpServerCpp.Core.Transition

/-!
# The base of the zlib filters

`zlib_base` of `zlib.cpp`.  One call of a filter hands the buffers of its caller to zlib (`before`,
then `xdeflate` or `xinflate`) and takes what zlib moved into the checksum (`after`); `reset` is
called between two streams.  zlib itself is not part of the repository: it is the parameter `Zlib`,
and `Zlib.Documented` is what its manual says of the buffers and of `crc32`.

The lengths of the buffers are cut down to 32 bits on the way to zlib, and the source is read for
the checksum only after the call.

* `call_spec`: one call stays within both buffers, and the checksum goes on by what it moved.
* `checksum_of_run`: along any calls and resets, `crc_` is the CRC-32 of what was moved since the
  last reset.
-/

namespace HttpServer

/-! ## The checksum of RFC 1952 -/

/-- One bit of the remainder. -/
def crcBit (r : UInt32) : UInt32 :=
  if r &&& 1 = 0 then r >>> 1 else (r >>> 1) ^^^ 0xedb88320

/-- One octet. -/
def crcOctet (r : UInt32) (b : UInt8) : UInt32 := Nat.repeat crcBit 8 (r ^^^ b.toUInt32)

/-- The checksum after more octets. -/
def updateCrc (crc : UInt32) (octets : List UInt8) : UInt32 := ~~~ octets.foldl crcOctet (~~~ crc)

lemma updateCrc_nil (crc : UInt32) : updateCrc crc [] = crc := by
  simp [updateCrc]

lemma updateCrc_append (crc : UInt32) (xs ys : List UInt8) :
    updateCrc crc (xs ++ ys) = updateCrc (updateCrc crc xs) ys := by
  simp [updateCrc]

/-- The octets of `123456789`. -/
example : updateCrc 0 [49, 50, 51, 52, 53, 54, 55, 56, 57] = 0xcbf43926 := by decide +kernel

/-! ## zlib -/

/-- The octets at an address and after it. -/
def octetsAt (mem : Nat → UInt8) (p n : Nat) : List UInt8 := (List.range n).map fun i => mem (p + i)

lemma octetsAt_congr {mem mem' : Nat → UInt8} {p n : Nat}
    (h : ∀ a, p ≤ a → a < p + n → mem' a = mem a) : octetsAt mem' p n = octetsAt mem p n := by
  refine List.map_congr_left fun i hi => ?_
  have hlt := List.mem_range.mp hi
  exact h (p + i) (by omega) (by omega)

/-- `z_stream`.  What its other members hold is up to zlib. -/
structure ZStream (ζ : Type) where
  nextIn : Nat
  availIn : UInt32
  totalIn : UInt64
  nextOut : Nat
  availOut : UInt32
  totalOut : UInt64
  internal : ζ

/-- The functions of zlib that are called. -/
structure Zlib (ζ : Type) where
  deflate : Int → ZStream ζ → (Nat → UInt8) → ZStream ζ × (Nat → UInt8) × Int
  inflate : Int → ZStream ζ → (Nat → UInt8) → ZStream ζ × (Nat → UInt8) × Int
  deflateInit2 : Int → Int → Int → Int → Int → ZStream ζ → ZStream ζ × Int
  inflateInit2 : Int → ZStream ζ → ZStream ζ × Int
  deflateReset : ZStream ζ → ZStream ζ
  inflateReset : ZStream ζ → ZStream ζ
  deflateEnd : ZStream ζ → ZStream ζ
  inflateEnd : ZStream ζ → ZStream ζ
  crc32 : UInt32 → (Nat → UInt8) → Nat → UInt32 → UInt32

variable {ζ : Type}

/-- A call reads from `next_in` and writes from `next_out` on, within what is available there.
What zlib allocates for itself is part of `internal`. -/
structure Moves (s : ZStream ζ) (mem : Nat → UInt8) (t : ZStream ζ) (mem' : Nat → UInt8) :
    Prop where
  le_nextIn : s.nextIn ≤ t.nextIn
  nextIn_le : t.nextIn ≤ s.nextIn + s.availIn.toNat
  le_nextOut : s.nextOut ≤ t.nextOut
  nextOut_le : t.nextOut ≤ s.nextOut + s.availOut.toNat
  frame : ∀ a, a < s.nextOut ∨ s.nextOut + s.availOut.toNat ≤ a → mem' a = mem a

/-- The manual: what a call does to the buffers, and which octets `crc32` takes.  (Of the null
pointer it returns the initial value.) -/
structure Zlib.Documented (lib : Zlib ζ) : Prop where
  deflate : ∀ flush s mem,
    Moves s mem (lib.deflate flush s mem).1 (lib.deflate flush s mem).2.1
  inflate : ∀ flush s mem,
    Moves s mem (lib.inflate flush s mem).1 (lib.inflate flush s mem).2.1
  crc32 : ∀ crc mem buf (length : UInt32), buf ≠ 0 →
    lib.crc32 crc mem buf length = updateCrc crc (octetsAt mem buf length.toNat)

/-! ## The code -/

/-- `Z_OK`. -/
def zOk : Int := 0

/-- `Z_STREAM_END`. -/
def zStreamEnd : Int := 1

/-- `Z_MEM_ERROR`. -/
def zMemError : Int := -4

/-- What `zlib_error::check` throws. -/
inductive ZlibFailure where
  | badAlloc
  | zlibError (error : Int)
deriving DecidableEq

/-- `zlib_error::check`. -/
def zlibCheck (error : Int) : Except ZlibFailure Unit :=
  if error = zOk ∨ error = zStreamEnd then .ok ()
  else if error = zMemError then .error .badAlloc
  else .error (.zlibError error)

/-- `zlib_params`. -/
structure ZlibParams where
  level : Int
  method : Int
  windowBits : Int
  memLevel : Int
  strategy : Int
  noheader : Bool
  calculateCrc : Bool

/-- `zlib_base`. -/
structure ZlibBase (ζ : Type) where
  stream : ZStream ζ
  calculateCrc : Bool
  crc : UInt32
  crcImp : UInt32
  totalIn : UInt64
  totalOut : UInt64

namespace ZlibBase

variable (lib : Zlib ζ)

/-- The constructor; what the new `z_stream` holds is not specified. -/
def construct (stream : ZStream ζ) : ZlibBase ζ := ⟨stream, false, 0, 0, 0, 0⟩

/-- The call of zlib in `do_init`. -/
def initStream (p : ZlibParams) (compress : Bool) (stream : ZStream ζ) : ZStream ζ × Int :=
  let windowBits := if p.noheader then -p.windowBits else p.windowBits
  if compress then lib.deflateInit2 p.level p.method windowBits p.memLevel p.strategy stream
  else lib.inflateInit2 windowBits stream

/-- `zlib_base::do_init`. -/
def doInit (p : ZlibParams) (compress : Bool) (z : ZlibBase ζ) :
    Except ZlibFailure (ZlibBase ζ) :=
  match zlibCheck (initStream lib p compress z.stream).2 with
  | .ok () =>
      .ok { z with
        calculateCrc := p.calculateCrc
        stream := (initStream lib p compress z.stream).1 }
  | .error e => .error e

/-- `zlib_base::before`. -/
def before (z : ZlibBase ζ) (srcBegin srcEnd destBegin destEnd : Nat) : ZlibBase ζ :=
  { z with stream := { z.stream with
      nextIn := srcBegin
      availIn := UInt32.ofNat (srcEnd - srcBegin)
      nextOut := destBegin
      availOut := UInt32.ofNat (destEnd - destBegin) } }

/-- `zlib_base::xdeflate`. -/
def xdeflate (flush : Int) (z : ZlibBase ζ) (mem : Nat → UInt8) :
    ZlibBase ζ × (Nat → UInt8) × Int :=
  let r := lib.deflate flush z.stream mem
  ({ z with stream := r.1 }, r.2)

/-- `zlib_base::xinflate`. -/
def xinflate (flush : Int) (z : ZlibBase ζ) (mem : Nat → UInt8) :
    ZlibBase ζ × (Nat → UInt8) × Int :=
  let r := lib.inflate flush z.stream mem
  ({ z with stream := r.1 }, r.2)

/-- `zlib_base::after`; the new `src_begin` and `dest_begin` are `next_in` and `next_out`. -/
def after (z : ZlibBase ζ) (mem : Nat → UInt8) (srcBegin destBegin : Nat) (compress : Bool) :
    ZlibBase ζ × Nat × Nat :=
  let nextIn := z.stream.nextIn
  let nextOut := z.stream.nextOut
  let z := if z.calculateCrc then
      let buf := if compress then srcBegin else destBegin
      let length := if compress then UInt32.ofNat (nextIn - srcBegin)
        else UInt32.ofNat (nextOut - destBegin)
      let crc := lib.crc32 z.crcImp mem buf length
      { z with crc := crc, crcImp := crc }
    else z
  ({ z with totalIn := z.stream.totalIn, totalOut := z.stream.totalOut }, nextIn, nextOut)

/-- `zlib_base::reset`. -/
def reset (compress realloc : Bool) (z : ZlibBase ζ) : ZlibBase ζ :=
  let stream := if realloc then
      if compress then lib.deflateReset z.stream else lib.inflateReset z.stream
    else if compress then lib.deflateEnd z.stream else lib.inflateEnd z.stream
  { z with stream := stream, crcImp := 0 }

/-! ## One call of a filter -/

/-- The buffers of a call: neither is null, and they do not overlap. -/
structure Buffers where
  mem : Nat → UInt8
  srcBegin : Nat
  srcEnd : Nat
  destBegin : Nat
  destEnd : Nat
  src_ne_null : srcBegin ≠ 0
  dest_ne_null : destBegin ≠ 0
  src_le : srcBegin ≤ srcEnd
  dest_le : destBegin ≤ destEnd
  apart : srcEnd ≤ destBegin ∨ destEnd ≤ srcBegin

/-- What a call leaves to its caller. -/
structure Called (ζ : Type) where
  base : ZlibBase ζ
  mem : Nat → UInt8
  srcBegin : Nat
  destBegin : Nat
  result : Int

/-- The three functions in the order in which a filter calls them. -/
def call (compress : Bool) (flush : Int) (z : ZlibBase ζ) (b : Buffers) : Called ζ :=
  let z := z.before b.srcBegin b.srcEnd b.destBegin b.destEnd
  let r := if compress then z.xdeflate lib flush b.mem else z.xinflate lib flush b.mem
  let s := r.1.after lib r.2.1 b.srcBegin b.destBegin compress
  ⟨s.1, r.2.1, s.2.1, s.2.2, r.2.2⟩

/-- The octets that a call moved, on the side that is not compressed: those it found in the source
or those it left in the destination. -/
def moved (compress : Bool) (b : Buffers) (r : Called ζ) : List UInt8 :=
  if compress then octetsAt b.mem b.srcBegin (r.srcBegin - b.srcBegin)
  else octetsAt r.mem b.destBegin (r.destBegin - b.destBegin)

/-- A call stays within its buffers, of each of which zlib sees a length of 32 bits. -/
structure Within (b : Buffers) (mem : Nat → UInt8) (srcBegin destBegin : Nat) : Prop where
  le_src : b.srcBegin ≤ srcBegin
  src_le : srcBegin ≤ b.srcBegin + (b.srcEnd - b.srcBegin) % 4294967296
  le_dest : b.destBegin ≤ destBegin
  dest_le : destBegin ≤ b.destBegin + (b.destEnd - b.destBegin) % 4294967296
  frame : ∀ a, a < b.destBegin ∨ b.destEnd ≤ a → mem a = b.mem a

variable {lib}
variable {compress : Bool} {flush : Int} {z : ZlibBase ζ} {b : Buffers}

lemma within_of_moves {t : ZStream ζ} {mem : Nat → UInt8}
    (h : Moves (z.before b.srcBegin b.srcEnd b.destBegin b.destEnd).stream b.mem t mem) :
    Within b mem t.nextIn t.nextOut := by
  obtain ⟨hle, hin, hle', hout, hframe⟩ := h
  simp only [before, UInt32.toNat_ofNat'] at hle hin hle' hout hframe
  have hdest := b.dest_le
  have hmod := Nat.mod_le (b.destEnd - b.destBegin) 4294967296
  exact ⟨hle, hin, hle', hout, fun a ha => hframe a (by omega)⟩

lemma within_call (hdoc : lib.Documented) :
    Within b (call lib compress flush z b).mem (call lib compress flush z b).srcBegin
      (call lib compress flush z b).destBegin := by
  cases compress with
  | true => exact within_of_moves (hdoc.deflate flush _ b.mem)
  | false => exact within_of_moves (hdoc.inflate flush _ b.mem)

/-- The cast of a pointer difference to 32 bits loses nothing. -/
lemma toNat_sub_of_le {p q n : Nat} (h : q ≤ p + n % 4294967296) :
    (UInt32.ofNat (q - p)).toNat = q - p := by
  rw [UInt32.toNat_ofNat']
  omega

/-- In the source there is still what was there before the call. -/
lemma octetsAt_source {mem : Nat → UInt8} {srcBegin destBegin : Nat}
    (h : Within b mem srcBegin destBegin) :
    octetsAt mem b.srcBegin (srcBegin - b.srcBegin) =
      octetsAt b.mem b.srcBegin (srcBegin - b.srcBegin) := by
  have hsrc := h.src_le
  have hmod := Nat.mod_le (b.srcEnd - b.srcBegin) 4294967296
  have hle := b.src_le
  have hapart := b.apart
  exact octetsAt_congr fun a hfrom hto => h.frame a (by omega)

lemma calculateCrc_call : (call lib compress flush z b).base.calculateCrc = z.calculateCrc := by
  cases compress <;> cases hcalculate : z.calculateCrc <;>
    simp [call, after, before, xdeflate, xinflate, hcalculate]

lemma crc_call (hcalculate : z.calculateCrc = true) :
    (call lib compress flush z b).base.crc = (call lib compress flush z b).base.crcImp := by
  cases compress <;> simp [call, after, before, xdeflate, xinflate, hcalculate]

lemma crc_call_of_not (hcalculate : z.calculateCrc = false) :
    (call lib compress flush z b).base.crc = z.crc ∧
      (call lib compress flush z b).base.crcImp = z.crcImp := by
  cases compress <;> simp [call, after, before, xdeflate, xinflate, hcalculate]

/-- The checksum goes on by what the call moved. -/
lemma crcImp_call (hdoc : lib.Documented) (hcalculate : z.calculateCrc = true) :
    (call lib compress flush z b).base.crcImp =
      updateCrc z.crcImp (moved compress b (call lib compress flush z b)) := by
  have hwithin : Within b (call lib compress flush z b).mem _ _ := within_call hdoc
  cases compress with
  | true =>
      have hlength := toNat_sub_of_le hwithin.src_le
      have hsource := octetsAt_source hwithin
      have hcrc := hdoc.crc32 z.crcImp (call lib true flush z b).mem b.srcBegin
        (UInt32.ofNat ((call lib true flush z b).srcBegin - b.srcBegin)) b.src_ne_null
      rw [hlength, hsource] at hcrc
      rw [moved, if_pos rfl, ← hcrc]
      simp [call, after, before, xdeflate, hcalculate]
  | false =>
      have hlength := toNat_sub_of_le hwithin.dest_le
      have hcrc := hdoc.crc32 z.crcImp (call lib false flush z b).mem b.destBegin
        (UInt32.ofNat ((call lib false flush z b).destBegin - b.destBegin)) b.dest_ne_null
      rw [hlength] at hcrc
      rw [moved, if_neg Bool.false_ne_true, ← hcrc]
      simp [call, after, before, xinflate, hcalculate]

/-! ## A whole run -/

/-- What happens to the base of a filter once it is initialised. -/
inductive ZlibEvent where
  | call (flush : Int) (b : Buffers)
  | reset (realloc : Bool)

/-- The state of the base, with what was moved since the last reset. -/
def lts (lib : Zlib ζ) (compress : Bool) : LTS (ZlibBase ζ × List UInt8) ZlibEvent where
  step s
    | .call flush b =>
        some ((call lib compress flush s.1 b).base,
          s.2 ++ moved compress b (call lib compress flush s.1 b))
    | .reset realloc => some (s.1.reset lib compress realloc, [])

/-- The running checksum is that of what was moved, if there is to be one. -/
structure Checked (calculate : Bool) (s : ZlibBase ζ × List UInt8) : Prop where
  calculateCrc : s.1.calculateCrc = calculate
  crcImp : calculate = true → s.1.crcImp = updateCrc 0 s.2
  crc : calculate = false → s.1.crc = 0

lemma Checked.step (hdoc : lib.Documented) {calculate : Bool} {s t : ZlibBase ζ × List UInt8}
    {e : ZlibEvent} (hs : Checked calculate s) (h : (lts lib compress).step s e = some t) :
    Checked calculate t := by
  cases e with
  | call flush b =>
      obtain rfl := Option.some.inj h
      refine ⟨calculateCrc_call.trans hs.calculateCrc, fun htrue => ?_, fun hfalse => ?_⟩
      · rw [crcImp_call hdoc (hs.calculateCrc.trans htrue), hs.crcImp htrue, updateCrc_append]
      · exact (crc_call_of_not (hs.calculateCrc.trans hfalse)).1.trans (hs.crc hfalse)
  | reset realloc =>
      obtain rfl := Option.some.inj h
      exact ⟨hs.calculateCrc, fun _ => (updateCrc_nil 0).symm, hs.crc⟩

lemma checked_of_doInit {p : ZlibParams} {stream : ZStream ζ}
    (h : doInit lib p compress (construct stream) = .ok z) : Checked p.calculateCrc (z, []) := by
  simp only [doInit] at h
  split at h
  · obtain rfl := Except.ok.inj h
    exact ⟨rfl, fun _ => (updateCrc_nil 0).symm, fun _ => rfl⟩
  · cases h

/-- **The checksum of a stream.**  After any resets and calls with such buffers, a further call
stays within its own, and then `crc_` is the CRC-32 of what was moved since the last reset, this
call included; it is zero when no checksum was asked for. -/
theorem checksum_of_run (lib : Zlib ζ) (hdoc : lib.Documented) (p : ZlibParams) (compress : Bool)
    (stream : ZStream ζ) (z : ZlibBase ζ)
    (hinit : doInit lib p compress (construct stream) = .ok z) (es : List ZlibEvent)
    (t : ZlibBase ζ × List UInt8) (h : (lts lib compress).run (z, []) es = some t) (flush : Int)
    (b : Buffers) :
    Within b (call lib compress flush t.1 b).mem (call lib compress flush t.1 b).srcBegin
        (call lib compress flush t.1 b).destBegin ∧
      (call lib compress flush t.1 b).base.crc =
        if p.calculateCrc then
          updateCrc 0 (t.2 ++ moved compress b (call lib compress flush t.1 b))
        else 0 := by
  refine ⟨within_call hdoc, ?_⟩
  have hchecked := LTS.run_invariant (checked_of_doInit hinit)
    (fun _ _ _ hs hstep => hs.step hdoc hstep) h
  cases hcalculate : p.calculateCrc with
  | true =>
      have htrue := hchecked.calculateCrc.trans hcalculate
      rw [crc_call htrue, crcImp_call hdoc htrue, hchecked.crcImp hcalculate, updateCrc_append]
      exact (if_pos rfl).symm
  | false =>
      rw [(crc_call_of_not (hchecked.calculateCrc.trans hcalculate)).1, hchecked.crc hcalculate]
      exact (if_neg Bool.false_ne_true).symm

/-- A zlib that inflates a stored block which is there as a whole, and makes no progress else. -/
def storedZlib : Zlib Unit where
  deflate _ s mem := (s, mem, -5)
  inflate _ s mem :=
    let length := (mem (s.nextIn + 1)).toNat + 256 * (mem (s.nextIn + 2)).toNat
    if mem s.nextIn = 1 ∧ 5 + length ≤ s.availIn.toNat ∧ length ≤ s.availOut.toNat then
      ({ s with
          nextIn := s.nextIn + (5 + length)
          availIn := s.availIn - UInt32.ofNat (5 + length)
          totalIn := s.totalIn + UInt64.ofNat (5 + length)
          nextOut := s.nextOut + length
          availOut := s.availOut - UInt32.ofNat length
          totalOut := s.totalOut + UInt64.ofNat length },
        fun a => if s.nextOut ≤ a ∧ a < s.nextOut + length then mem (s.nextIn + 5 + (a - s.nextOut))
          else mem a,
        zStreamEnd)
    else (s, mem, -5)
  deflateInit2 _ _ _ _ _ s := ({ s with totalIn := 0, totalOut := 0 }, zOk)
  inflateInit2 _ s := ({ s with totalIn := 0, totalOut := 0 }, zOk)
  deflateReset s := { s with totalIn := 0, totalOut := 0 }
  inflateReset s := { s with totalIn := 0, totalOut := 0 }
  deflateEnd s := s
  inflateEnd s := s
  crc32 crc mem buf length := if buf = 0 then 0 else updateCrc crc (octetsAt mem buf length.toNat)

lemma moves_nothing (s : ZStream ζ) (mem : Nat → UInt8) : Moves s mem s mem :=
  ⟨Nat.le_refl _, Nat.le_add_right _ _, Nat.le_refl _, Nat.le_add_right _ _, fun _ _ => rfl⟩

lemma storedZlib_documented : storedZlib.Documented where
  deflate _ s mem := moves_nothing s mem
  inflate _ s mem := by
    simp only [storedZlib]
    split_ifs with hblock
    · obtain ⟨-, hin, hout⟩ := hblock
      refine ⟨Nat.le_add_right _ _, Nat.add_le_add_left hin _, Nat.le_add_right _ _,
        Nat.add_le_add_left hout _, fun a ha => ?_⟩
      exact if_neg (by omega)
    · exact moves_nothing s mem
  crc32 _ _ _ _ hbuf := if_neg hbuf

/-- A stored block that holds the letter `a`, and room for it. -/
def storedLetter : Buffers where
  mem a := [0, 1, 1, 0, 0xfe, 0xff, 97].getD a 0
  srcBegin := 1
  srcEnd := 7
  destBegin := 8
  destEnd := 9
  src_ne_null := by decide
  dest_ne_null := by decide
  src_le := by decide
  dest_le := by decide
  apart := by decide

/-- Two streams, one after the other. -/
theorem checksum_of_run_stored :
    ∃ z t, doInit storedZlib ⟨6, 8, 15, 8, 0, true, true⟩ false
        (construct ⟨0, 0, 0, 0, 0, 0, ()⟩) = .ok z ∧
      (lts storedZlib false).run (z, []) [.call 0 storedLetter, .reset true] = some t ∧
      (call storedZlib false 0 t.1 storedLetter).base.crc = 0xe8b7be43 := by
  have hinit : ∃ z, doInit storedZlib ⟨6, 8, 15, 8, 0, true, true⟩ false
      (construct ⟨0, 0, 0, 0, 0, 0, ()⟩) = .ok z := ⟨_, rfl⟩
  obtain ⟨z, hz⟩ := hinit
  have hrun : ∃ t, (lts storedZlib false).run (z, []) [.call 0 storedLetter, .reset true] = some t ∧
      t.2 = [] := ⟨_, rfl, rfl⟩
  obtain ⟨t, ht, hnone⟩ := hrun
  have hmoved : moved false storedLetter (call storedZlib false 0 t.1 storedLetter) = [97] := rfl
  have hcrc := (checksum_of_run storedZlib storedZlib_documented ⟨6, 8, 15, 8, 0, true, true⟩ false
    _ z hz _ t ht 0 storedLetter).2
  rw [hmoved, hnone] at hcrc
  exact ⟨z, t, hz, ht, hcrc.trans (by decide +kernel)⟩

end ZlibBase

end HttpServer
