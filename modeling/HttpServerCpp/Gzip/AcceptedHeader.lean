import HttpServerCpp.Gzip.GzipHeader

/-!
# Which headers are accepted

The language of `gzip_header::process`, section by section, the last one first: each lemma says
which octets complete a header from the state in which the section begins.

`header_exact` puts the sections together: of the inputs below 2 GiB, the parser accepts those that
consist of the sections their flags announce, if an announced extra field is not empty.
-/

namespace HttpServer

namespace GzipHeader

section Sections

variable {c : GzipConstants} {h t : GzipHeader} {bs : List UInt8}

/-- The octets complete the header. -/
def Completes (c : GzipConstants) (h : GzipHeader) (bs : List UInt8) (t : GzipHeader) : Prop :=
  Finishes (process c) isDone h bs t

/-- The magic number and the method. -/
lemma completes_magic : Completes c reset bs t ↔
    ∃ rest, bs = c.id1 :: c.id2 :: c.deflate :: rest ∧
      Completes c { reset with state := .flg } rest t := by
  have hid1 := @finishes_literal _ _ _ (process c) isDone reset t _ c.id1
    { reset with state := .id2 } .badHeader (by decide) (by simp [process, reset]) bs
  have hid2 := @finishes_literal _ _ _ (process c) isDone { reset with state := .id2 } t _ c.id2
    { reset with state := .cm } .badHeader (by decide) (by simp [process, reset])
  have hcm := @finishes_literal _ _ _ (process c) isDone { reset with state := .cm } t _ c.deflate
    { reset with state := .flg } .badMethod (by decide) (by simp [process, reset])
  unfold Completes
  simp only [hid1, hid2, hcm]
  constructor
  · rintro ⟨-, rfl, -, rfl, rest, rfl, hrest⟩
    exact ⟨rest, rfl, hrest⟩
  · rintro ⟨rest, rfl, hrest⟩
    exact ⟨_, rfl, _, rfl, rest, rfl, hrest⟩

lemma completes_start : Completes c reset bs t ↔
    ∃ flags rest, bs = c.id1 :: c.id2 :: c.deflate :: flags :: rest ∧
      Completes c { reset with flags := flags, state := .mtime } rest t := by
  have hflg := @finishes_any _ _ _ (process c) isDone { reset with state := .flg } t
    (fun flags => { reset with flags := flags, state := .mtime }) (by decide)
    (by simp [process, reset])
  rw [completes_magic]
  constructor
  · rintro ⟨rest, rfl, hrest⟩
    obtain ⟨flags, rest, rfl, hrest⟩ := (hflg rest).mp hrest
    exact ⟨flags, rest, rfl, hrest⟩
  · rintro ⟨flags, rest, rfl, hrest⟩
    exact ⟨flags :: rest, rfl, (hflg _).mpr ⟨flags, rest, rfl, hrest⟩⟩

/-- Octets that are added up in `mtime_`. -/
lemma completes_mtime : Completes c { h with state := .mtime, offset := 0 } bs t ↔
    ∃ time rest, bs = time ++ rest ∧ time.length = 4 ∧
      Completes c { h with mtime := h.mtime + shiftedSumInt 0 time, state := .xfl, offset := 0 }
        rest t := by
  let stage : List UInt8 → GzipHeader := fun xs =>
    { h with
      mtime := h.mtime + shiftedSumInt 0 xs
      offset := if xs.length < 4 then xs.length else 0
      state := if xs.length < 4 then .mtime else .xfl }
  have hfirst : stage [] = { h with state := .mtime, offset := 0 } := by
    simp [stage, shiftedSumInt]
  have hstep : ∀ xs b, xs.length < 4 → process c (stage xs) b = .ok (stage (xs ++ [b])) := by
    intro xs b hxs
    by_cases hfull : xs.length = 3
    · simp [stage, process, hfull, shiftedSumInt_snoc, Int.add_assoc]
    · have hshort : xs.length + 1 < 4 := by omega
      simp [stage, process, hxs, hfull, hshort, shiftedSumInt_snoc, Int.add_assoc]
  rw [← hfirst]
  exact finishes_counted (fun xs hxs => by simp [stage, isDone, hxs]) hstep
    (fun xs hxs => by simp [stage, hxs]) bs

/-- `XFL`, which is skipped, and `OS`. -/
lemma completes_os : Completes c { h with state := .xfl, offset := 0 } bs t ↔
    ∃ xfl os rest, bs = xfl :: os :: rest ∧
      Completes c { h with os := os, state := afterOs c h.flags, offset := 0 } rest t := by
  have hxfl := @finishes_any _ _ _ (process c) isDone { h with state := .xfl, offset := 0 } t
    (fun _ => { h with state := .os, offset := 0 }) (by simp [isDone]) (by simp [process]) bs
  have hos := @finishes_any _ _ _ (process c) isDone { h with state := .os, offset := 0 } t
    (fun os => { h with os := os, state := afterOs c h.flags, offset := 0 }) (by simp [isDone])
    (by simp [process])
  unfold Completes
  simp only [hxfl, hos]
  constructor
  · rintro ⟨xfl, -, rfl, os, rest, rfl, hrest⟩
    exact ⟨xfl, os, rest, rfl, hrest⟩
  · rintro ⟨xfl, os, rest, rfl, hrest⟩
    exact ⟨xfl, _, rfl, os, rest, rfl, hrest⟩

/-- Octets that are added up in `xlen_`. -/
lemma completes_xlen : Completes c { h with state := .xlen, offset := 0 } bs t ↔
    ∃ xlen rest, bs = xlen ++ rest ∧ xlen.length = 2 ∧
      Completes c { h with
        xlen := h.xlen + shiftedSum 0 xlen, state := .extra, offset := 0 }
        rest t := by
  let stage : List UInt8 → GzipHeader := fun xs =>
    { h with
      xlen := h.xlen + shiftedSum 0 xs
      offset := if xs.length < 2 then xs.length else 0
      state := if xs.length < 2 then .xlen else .extra }
  have hfirst : stage [] = { h with state := .xlen, offset := 0 } := by
    simp [stage, shiftedSum]
  have hstep : ∀ xs b, xs.length < 2 → process c (stage xs) b = .ok (stage (xs ++ [b])) := by
    intro xs b hxs
    by_cases hfull : xs.length = 1
    · simp [stage, process, hfull, shiftedSum_snoc, BitVec.add_assoc]
    · obtain rfl : xs = [] := List.length_eq_zero_iff.mp (by omega)
      simp [stage, process, shiftedSum]
  rw [← hfirst]
  exact finishes_counted (fun xs hxs => by simp [stage, isDone, hxs]) hstep
    (fun xs hxs => by simp [stage, hxs]) bs

/-- How many octets of extra field the counter `xlen_` lets pass: it is decremented before it is
compared with zero, so zero lets `2 ^ 32` pass. -/
def extraCount (xlen : BitVec 32) : Nat := (xlen - 1#32).toNat + 1

/-- The counter gets to zero at the last octet and not before. -/
lemma xlen_sub_eq_zero {xlen : BitVec 32} {n : Nat} (hpos : 0 < n) (hle : n ≤ extraCount xlen) :
    xlen - BitVec.ofNat 32 n = 0#32 ↔ n = extraCount xlen := by
  unfold extraCount at hle ⊢
  bv_omega

/-- Octets that are counted by `xlen_`. -/
lemma completes_extra : Completes c { h with state := .extra, offset := 0 } bs t ↔
    ∃ extra rest, bs = extra ++ rest ∧ extra.length = extraCount h.xlen ∧
      Completes c { h with xlen := 0, state := afterExtra c h.flags, offset := 0 } rest t := by
  let stage : List UInt8 → GzipHeader := fun xs =>
    { h with
      xlen := h.xlen - BitVec.ofNat 32 xs.length
      offset := 0
      state := if xs.length < extraCount h.xlen then .extra else afterExtra c h.flags }
  have hpos : 0 < extraCount h.xlen := Nat.succ_pos _
  have hlast := (xlen_sub_eq_zero hpos (Nat.le_refl _)).mpr rfl
  have hfirst : stage [] = { h with state := .extra, offset := 0 } := by
    simp [stage, hpos]
  have hstep : ∀ xs b, xs.length < extraCount h.xlen →
      process c (stage xs) b = .ok (stage (xs ++ [b])) := by
    intro xs b hxs
    have hnext : h.xlen - BitVec.ofNat 32 xs.length - 1#32 =
        h.xlen - BitVec.ofNat 32 (xs.length + 1) := by
      bv_omega
    have hzero := xlen_sub_eq_zero (Nat.succ_pos xs.length) hxs
    by_cases hfull : xs.length + 1 = extraCount h.xlen
    · simp [stage, process, hxs, hnext, hfull, hlast]
    · have hshort : xs.length + 1 < extraCount h.xlen := by omega
      have hnot : ¬ h.xlen - BitVec.ofNat 32 (xs.length + 1) = 0#32 := fun h0 => hfull (hzero.mp h0)
      simp [stage, process, hxs, hnext, hnot, hshort]
  rw [← hfirst]
  exact finishes_counted (fun xs hxs => by simp [stage, isDone, hxs]) hstep
    (fun xs hxs => by simp [stage, hxs, hlast]) bs

/-- Octets of the file name, up to a zero. -/
lemma completes_name : Completes c { h with state := .name, offset := 0 } bs t ↔
    ∃ text rest, bs = text ++ 0 :: rest ∧ 0 ∉ text ∧
      Completes c
        { h with fileName := h.fileName ++ text, state := afterName c h.flags, offset := 0 }
        rest t := by
  let stage : List UInt8 → GzipHeader := fun xs =>
    { h with fileName := h.fileName ++ xs, state := .name, offset := 0 }
  let next : List UInt8 → GzipHeader := fun xs =>
    { h with fileName := h.fileName ++ xs, state := afterName c h.flags, offset := 0 }
  have hfirst : stage [] = { h with state := .name, offset := 0 } := by
    simp [stage]
  have hstep : ∀ xs b, process c (stage xs) b =
      .ok (if b = 0 then next xs else stage (xs ++ [b])) := by
    intro xs b
    by_cases hb : b = 0 <;> simp [stage, next, process, hb]
  rw [← hfirst]
  exact finishes_terminated (fun xs => by simp [stage, isDone]) hstep bs

/-- Octets of the comment, up to a zero. -/
lemma completes_comment : Completes c { h with state := .comment, offset := 0 } bs t ↔
    ∃ text rest, bs = text ++ 0 :: rest ∧ 0 ∉ text ∧
      Completes c
        { h with comment := h.comment ++ text, state := afterComment c h.flags, offset := 0 }
        rest t := by
  let stage : List UInt8 → GzipHeader := fun xs =>
    { h with comment := h.comment ++ xs, state := .comment, offset := 0 }
  let next : List UInt8 → GzipHeader := fun xs =>
    { h with comment := h.comment ++ xs, state := afterComment c h.flags, offset := 0 }
  have hfirst : stage [] = { h with state := .comment, offset := 0 } := by
    simp [stage]
  have hstep : ∀ xs b, process c (stage xs) b =
      .ok (if b = 0 then next xs else stage (xs ++ [b])) := by
    intro xs b
    by_cases hb : b = 0 <;> simp [stage, next, process, hb]
  rw [← hfirst]
  exact finishes_terminated (fun xs => by simp [stage, isDone]) hstep bs

/-- Two octets that are skipped. -/
lemma completes_hcrc : Completes c { h with state := .hcrc, offset := 0 } bs t ↔
    ∃ crc rest, bs = crc ++ rest ∧ crc.length = 2 ∧
      Completes c { h with state := .done, offset := 0 } rest t := by
  let stage : List UInt8 → GzipHeader := fun xs =>
    { h with
      offset := if xs.length < 2 then xs.length else 0
      state := if xs.length < 2 then .hcrc else .done }
  have hfirst : stage [] = { h with state := .hcrc, offset := 0 } := by
    simp [stage]
  have hstep : ∀ xs b, xs.length < 2 → process c (stage xs) b = .ok (stage (xs ++ [b])) := by
    intro xs b hxs
    by_cases hfull : xs.length = 1
    · simp [stage, process, hfull]
    · obtain rfl : xs = [] := List.length_eq_zero_iff.mp (by omega)
      simp [stage, process]
  rw [← hfirst]
  exact finishes_counted (fun xs hxs => by simp [stage, isDone, hxs]) hstep
    (fun xs hxs => by simp [stage, hxs]) bs

/-- The end refuses every octet. -/
lemma completes_done : Completes c { h with state := .done, offset := 0 } bs t ↔
    bs = [] ∧ t = { h with state := .done, offset := 0 } := by
  refine finishes_done ?_ (fun b => ⟨.assertion, ?_⟩) bs
  · simp [isDone]
  · simp [process]

/-! ## From the end to the beginning -/

lemma completes_afterComment :
    Completes c { h with state := afterComment c h.flags, offset := 0 } bs t ↔
      bs.length = (if hasFlag h.flags c.headerCrc then 2 else 0) ∧
        t = { h with state := .done, offset := 0 } := by
  unfold afterComment
  split_ifs with hflag
  · rw [completes_hcrc]
    constructor
    · rintro ⟨crc, rest, rfl, hlength, hrest⟩
      obtain ⟨rfl, rfl⟩ := completes_done.mp hrest
      exact ⟨by simpa using hlength, rfl⟩
    · rintro ⟨hlength, rfl⟩
      exact ⟨bs, [], by simp, hlength, completes_done.mpr ⟨rfl, rfl⟩⟩
  · simp [completes_done]

lemma completes_afterName :
    Completes c { h with state := afterName c h.flags, offset := 0 } bs t ↔
      ∃ text crc, bs = zeroTerminated (hasFlag h.flags c.comment) text ++ crc ∧ 0 ∉ text ∧
        (¬ hasFlag h.flags c.comment → text = []) ∧
        crc.length = (if hasFlag h.flags c.headerCrc then 2 else 0) ∧
        t = { h with comment := h.comment ++ text, state := .done, offset := 0 } := by
  have hafter := fun text bs =>
    @completes_afterComment c { h with comment := h.comment ++ text } t bs
  by_cases hflag : hasFlag h.flags c.comment
  · have hstate : afterName c h.flags = .comment := if_pos hflag
    simp [hstate, completes_comment, hafter, zeroTerminated, hflag]
  · have hstate : afterName c h.flags = afterComment c h.flags := if_neg hflag
    simp [hstate, completes_afterComment, zeroTerminated, hflag]

lemma completes_afterExtra :
    Completes c { h with state := afterExtra c h.flags, offset := 0 } bs t ↔
      ∃ name text crc, bs = zeroTerminated (hasFlag h.flags c.name) name ++
          (zeroTerminated (hasFlag h.flags c.comment) text ++ crc) ∧
        0 ∉ name ∧ (¬ hasFlag h.flags c.name → name = []) ∧
        0 ∉ text ∧ (¬ hasFlag h.flags c.comment → text = []) ∧
        crc.length = (if hasFlag h.flags c.headerCrc then 2 else 0) ∧
        t = { h with
          fileName := h.fileName ++ name, comment := h.comment ++ text, state := .done
          offset := 0 } := by
  have hafter := fun name bs =>
    @completes_afterName c { h with fileName := h.fileName ++ name } t bs
  by_cases hflag : hasFlag h.flags c.name
  · have hstate : afterExtra c h.flags = .name := if_pos hflag
    simp [hstate, completes_name, hafter, zeroTerminated, hflag]
  · have hstate : afterExtra c h.flags = afterName c h.flags := if_neg hflag
    simp [hstate, completes_afterName, zeroTerminated, hflag]

/-- With an extra field, `XLEN` counts it, and zero counts `2 ^ 32`. -/
lemma completes_afterOs (hxlen : h.xlen = 0) :
    Completes c { h with state := afterOs c h.flags, offset := 0 } bs t ↔
      ∃ xlen extra rest, bs = xlen ++ (extra ++ rest) ∧
        xlen.length = (if hasFlag h.flags c.extra then 2 else 0) ∧
        extra.length = (if hasFlag h.flags c.extra then
          extraCount (BitVec.ofNat 32 (littleEndian xlen)) else 0) ∧
        Completes c { h with state := afterExtra c h.flags, offset := 0 } rest t := by
  by_cases hflag : hasFlag h.flags c.extra
  · have hstate : afterOs c h.flags = .xlen := if_pos hflag
    have hcount : ∀ xlen : List UInt8, xlen.length = 2 →
        h.xlen + shiftedSum 0 xlen = BitVec.ofNat 32 (littleEndian xlen) := by
      intro xlen hlength
      rw [hxlen, shiftedSum_two hlength]
      exact BitVec.zero_add _
    have hzero : { h with xlen := 0, state := afterExtra c h.flags, offset := 0 } =
        { h with state := afterExtra c h.flags, offset := 0 } := by
      rw [← hxlen]
    have hafter := fun (xlen : BitVec 32) bs => @completes_extra c { h with xlen := xlen } t bs
    simp only [hstate, completes_xlen, if_pos hflag]
    constructor
    · rintro ⟨xlen, rest, rfl, hlength, hrest⟩
      rw [hcount xlen hlength] at hrest
      obtain ⟨extra, rest, rfl, hextra, hrest⟩ :=
        (hafter (BitVec.ofNat 32 (littleEndian xlen)) rest).mp hrest
      exact ⟨xlen, extra, rest, rfl, hlength, hextra, hzero ▸ hrest⟩
    · rintro ⟨xlen, extra, rest, rfl, hlength, hextra, hrest⟩
      refine ⟨xlen, extra ++ rest, rfl, hlength, ?_⟩
      rw [hcount xlen hlength]
      exact (hafter (BitVec.ofNat 32 (littleEndian xlen)) _).mpr
        ⟨extra, rest, rfl, hextra, hzero.symm ▸ hrest⟩
  · have hstate : afterOs c h.flags = afterExtra c h.flags := if_neg hflag
    simp [hstate, hflag]

/-- The fixed part of a header, and the sections its flags announce. -/
lemma completes_reset : Completes c reset bs t ↔
    ∃ flags time xfl os xlen extra rest,
      bs = c.id1 :: c.id2 :: c.deflate :: flags ::
        (time ++ xfl :: os :: (xlen ++ (extra ++ rest))) ∧
      time.length = 4 ∧
      xlen.length = (if hasFlag flags c.extra then 2 else 0) ∧
      extra.length = (if hasFlag flags c.extra then
        extraCount (BitVec.ofNat 32 (littleEndian xlen)) else 0) ∧
      Completes c { reset with
        flags := flags, mtime := signedTime time, os := os
        state := afterExtra c flags } rest t := by
  have htime : ∀ {time : List UInt8}, time.length = 4 →
      (0 : Int) + shiftedSumInt 0 time = signedTime time := by
    intro time hlength
    rw [Int.zero_add, shiftedSumInt_four hlength]
  have hmtime := fun flags bs => @completes_mtime c { reset with flags := flags } t bs
  have hos := fun flags (mtime : Int) bs =>
    @completes_os c { reset with flags := flags, mtime := mtime } t bs
  have hextra := fun flags (mtime : Int) os bs =>
    @completes_afterOs c { reset with flags := flags, mtime := mtime, os := os } t bs rfl
  rw [completes_start]
  constructor
  · rintro ⟨flags, rest, rfl, hrest⟩
    obtain ⟨time, rest, rfl, hlength, hrest⟩ := (hmtime flags rest).mp hrest
    obtain ⟨xfl, os, rest, rfl, hrest⟩ := (hos flags (0 + shiftedSumInt 0 time) rest).mp hrest
    obtain ⟨xlen, extra, rest, rfl, hxlen, hcount, hrest⟩ :=
      (hextra flags (0 + shiftedSumInt 0 time) os rest).mp hrest
    refine ⟨flags, time, xfl, os, xlen, extra, rest, rfl, hlength, hxlen, hcount, ?_⟩
    rw [← htime hlength]
    exact hrest
  · rintro ⟨flags, time, xfl, os, xlen, extra, rest, rfl, hlength, hxlen, hcount, hrest⟩
    rw [← htime hlength] at hrest
    refine ⟨flags, _, rfl, (hmtime flags _).mpr ⟨time, _, rfl, hlength, ?_⟩⟩
    refine (hos flags (0 + shiftedSumInt 0 time) _).mpr ⟨xfl, os, _, rfl, ?_⟩
    exact (hextra flags (0 + shiftedSumInt 0 time) os _).mpr
      ⟨xlen, extra, rest, rfl, hxlen, hcount, hrest⟩

lemma extraCount_of_ne_zero {n : Nat} (hlt : n < 65536) (hne : n ≠ 0) :
    extraCount (BitVec.ofNat 32 n) = n := by
  unfold extraCount
  bv_omega

/-- **What the parser accepts.**  Of inputs shorter than 2 GiB, in which the counter of an extra
field cannot overflow, exactly those that have the layout of a member header without an empty extra
field, whatever the reserved flags, the extra field and the checksum hold; and it ends with the
values in them. -/
theorem header_exact (c : GzipConstants) (bs : List UInt8) (hbs : bs.length < 2147483648)
    (t : GzipHeader) :
    Completes c reset bs t ↔ ∃ m : MemberHeader c,
      (hasFlag m.flags c.extra → m.extra ≠ []) ∧ bs = m.write ∧ t = m.received := by
  rw [completes_reset]
  constructor
  · rintro ⟨flags, time, xfl, os, xlen, extra, rest, rfl, htime, hxlen, hextra, hrest⟩
    obtain ⟨name, text, crc, rfl, hname, hname', htext, htext', hcrc, rfl⟩ :=
      (@completes_afterExtra c { reset with flags := flags, mtime := signedTime time, os := os }
        t rest).mp hrest
    have hnonempty : hasFlag flags c.extra → littleEndian xlen ≠ 0 := by
      -- the counter would take 4 GiB to get to zero
      intro hflag hzero
      rw [if_pos hflag, hzero] at hextra
      have hlong : extraCount (BitVec.ofNat 32 0) = 4294967296 := by decide
      simp only [List.length_cons, List.length_append] at hbs
      omega
    have hlength : extra.length = littleEndian xlen := by
      by_cases hflag : hasFlag flags c.extra
      · rw [if_pos hflag] at hxlen hextra
        rw [hextra, extraCount_of_ne_zero (littleEndian_two hxlen) (hnonempty hflag)]
      · rw [if_neg hflag] at hxlen hextra
        rw [hextra, List.length_eq_zero_iff.mp hxlen, littleEndian]
    refine ⟨⟨flags, time, xfl, os, xlen, extra, name, text, crc, htime, hxlen, hlength, hname,
      hname', htext, htext', hcrc⟩, fun hflag hnil => ?_, rfl, rfl⟩
    have hnone : extra = [] := hnil
    rw [hnone] at hlength
    exact hnonempty hflag hlength.symm
  · rintro ⟨m, hextra, rfl, rfl⟩
    refine ⟨m.flags, m.mtime, m.xfl, m.os, m.xlen, m.extra, _, rfl, m.mtime_length,
      m.xlen_length, ?_, ?_⟩
    · rw [m.extra_length]
      have hxlen := m.xlen_length
      by_cases hflag : hasFlag m.flags c.extra
      · rw [if_pos hflag] at hxlen
        rw [if_pos hflag, extraCount_of_ne_zero (littleEndian_two hxlen)]
        intro hzero
        have hlength := m.extra_length
        rw [hzero] at hlength
        exact hextra hflag (List.length_eq_zero_iff.mp hlength)
      · rw [if_neg hflag] at hxlen
        rw [if_neg hflag, List.length_eq_zero_iff.mp hxlen, littleEndian]
    · exact (@completes_afterExtra c
        { reset with flags := m.flags, mtime := signedTime m.mtime, os := m.os } _ _).mpr
        ⟨m.fileName, m.comment, m.crc16, rfl, m.fileName_terminated, m.fileName_absent,
          m.comment_terminated, m.comment_absent, m.crc16_length, rfl⟩

end Sections

/-- `1f 8b 08 08 ..`: a header with a file name of one letter, read by a system that sent the time
`0xffffffff`. -/
def namedHeader : MemberHeader rfc1952 where
  flags := 8
  mtime := [0xff, 0xff, 0xff, 0xff]
  xfl := 0
  os := 3
  xlen := []
  extra := []
  fileName := [97]
  comment := []
  crc16 := []
  mtime_length := rfl
  xlen_length := rfl
  extra_length := rfl
  fileName_terminated := by decide
  fileName_absent := by decide
  comment_terminated := by decide
  comment_absent := fun _ => rfl
  crc16_length := rfl

theorem header_exact_named :
    Completes rfc1952 reset namedHeader.write namedHeader.received ∧
      namedHeader.received.mtime = -1 :=
  ⟨(header_exact rfc1952 namedHeader.write (by decide) _).mpr ⟨namedHeader, by decide, rfl, rfl⟩,
    by decide⟩

end GzipHeader

end HttpServer
