import HttpServerCpp.Gzip.AcceptedHeader

/-!
# Which headers are refused

`header_errors`: a wrong magic number and a wrong method are the only things in a header that
`gzip_header::process` objects to.  Every other input is the beginning of a header, or has one at
its beginning and goes on after it.  As in `header_exact` this speaks of inputs shorter than 2 GiB:
in a longer one `xlen_` can overflow, which C++ does not define and the model lets wrap.
-/

namespace HttpServer

namespace GzipHeader

section Refused

variable {c : GzipConstants} {h t : GzipHeader} {b : UInt8} {bs : List UInt8} {e : GzipFailure}

/-- The four places where `process` fails. -/
lemma process_error : process c h b = .error e ↔
    h.state = .id1 ∧ b ≠ c.id1 ∧ e = .badHeader ∨ h.state = .id2 ∧ b ≠ c.id2 ∧ e = .badHeader ∨
      h.state = .cm ∧ b ≠ c.deflate ∧ e = .badMethod ∨ h.state = .done ∧ e = .assertion := by
  unfold process
  cases hstate : h.state with
  | id1 | id2 | cm =>
      simp only [reduceCtorEq, false_and, true_and, or_false, false_or]
      split_ifs with hb <;> simp [hb, eq_comm]
  | done => simp [eq_comm]
  | _ => simp

/-- The first three octets have been accepted. -/
def PastMagic (h : GzipHeader) : Prop := h.state ≠ .id1 ∧ h.state ≠ .id2 ∧ h.state ≠ .cm

/-- `process` never goes back to the first three octets. -/
lemma PastMagic.process (hpast : h.PastMagic) (hok : h.process c b = .ok t) : t.PastMagic := by
  obtain ⟨hid1, hid2, hcm⟩ := hpast
  unfold GzipHeader.process at hok
  cases hstate : h.state with
  | id1 => exact absurd hstate hid1
  | id2 => exact absurd hstate hid2
  | cm => exact absurd hstate hcm
  | done => simp [hstate] at hok
  | flg | xfl =>
      simp only [hstate, Except.ok.injEq] at hok
      subst hok
      simp [PastMagic]
  | mtime | xlen | hcrc =>
      simp only [hstate, Except.ok.injEq] at hok
      subst hok
      split_ifs <;> simp [PastMagic]
  | os =>
      simp only [hstate, Except.ok.injEq] at hok
      subst hok
      simp only [PastMagic, afterOs]
      split_ifs <;> simp
  | extra =>
      simp only [hstate, Except.ok.injEq] at hok
      subst hok
      simp only [PastMagic, afterExtra]
      split_ifs <;> simp
  | name =>
      simp only [hstate, Except.ok.injEq] at hok
      subst hok
      simp only [PastMagic, afterName]
      split_ifs <;> simp
  | comment =>
      simp only [hstate, Except.ok.injEq] at hok
      subst hok
      simp only [PastMagic, afterComment]
      split_ifs <;> simp

/-- Past the first three octets only what follows the header is refused. -/
lemma PastMagic.feed_error (hpast : h.PastMagic)
    (herror : feed (GzipHeader.process c) h bs = .error e) :
    e = .assertion ∧ ∃ front b rest t, bs = front ++ b :: rest ∧ Completes c h front t := by
  induction bs generalizing h with
  | nil => simp [feed] at herror
  | cons b bs ih =>
      obtain ⟨hid1, hid2, hcm⟩ := hpast
      cases hb : h.process c b with
      | error e' =>
          rw [feed_cons_of_error hb] at herror
          obtain rfl := Except.error.inj herror
          have hdone : h.state = .done ∧ e' = .assertion := by
            simpa [hid1, hid2, hcm] using process_error.mp hb
          exact ⟨hdone.2, [], b, bs, h, rfl, rfl, hdone.1⟩
      | ok u =>
          rw [feed_cons_of_ok hb] at herror
          obtain ⟨he, front, b', rest, t, rfl, hfront⟩ :=
            ih (PastMagic.process ⟨hid1, hid2, hcm⟩ hb) herror
          exact ⟨he, b :: front, b', rest, t, rfl, finishes_cons.mpr ⟨u, hb, hfront⟩⟩

/-- The states in which the first three octets are read. -/
lemma process_magic :
    (∀ b, process c reset b =
      if b ≠ c.id1 then .error .badHeader else .ok { reset with state := .id2 }) ∧
    (∀ b, process c { reset with state := .id2 } b =
      if b ≠ c.id2 then .error .badHeader else .ok { reset with state := .cm }) ∧
    ∀ b, process c { reset with state := .cm } b =
      if b ≠ c.deflate then .error .badMethod else .ok { reset with state := .flg } :=
  ⟨fun _ => rfl, fun _ => rfl, fun _ => rfl⟩

/-- After the first three octets, an input is refused where its header has ended. -/
lemma feed_afterMagic_error :
    feed (GzipHeader.process c) { reset with state := .flg } bs = .error e ↔
      e = .assertion ∧ ∃ front b rest t, bs = front ++ b :: rest ∧
        Completes c { reset with state := .flg } front t := by
  constructor
  · intro herror
    have hpast : PastMagic { reset with state := .flg } := by simp [PastMagic]
    exact hpast.feed_error herror
  · rintro ⟨rfl, front, b, rest, t, rfl, hfront, hdone⟩
    have hrefused : process c t b = .error .assertion := by
      have hstate : t.state = .done := hdone
      simp [process, hstate]
    rw [feed_append_of_ok hfront, feed_cons_of_error hrefused]

/-- **What is refused.**  An input fails at a wrong first, second or third octet, and else only
where the header it begins with has ended.  From 2 GiB on the wrapping of `xlen_` is the model's. -/
theorem header_errors (c : GzipConstants) (bs : List UInt8) (e : GzipFailure) :
    feed (GzipHeader.process c) reset bs = .error e ↔
      (e = .badHeader ∧ ((∃ b rest, bs = b :: rest ∧ b ≠ c.id1) ∨
        ∃ b rest, bs = c.id1 :: b :: rest ∧ b ≠ c.id2)) ∨
      (e = .badMethod ∧ ∃ b rest, bs = c.id1 :: c.id2 :: b :: rest ∧ b ≠ c.deflate) ∨
      e = .assertion ∧ ∃ front b rest t, bs = front ++ b :: rest ∧ Completes c reset front t := by
  obtain ⟨hid1, hid2, hcm⟩ := @process_magic c
  -- one symbol of the magic number after the other, and then the rest of the header
  rw [feed_literal_error hid1]
  simp only [feed_literal_error hid2, feed_literal_error hcm, feed_afterMagic_error]
  constructor
  · rintro (⟨rfl, hfirst⟩ | ⟨_, rfl, ⟨rfl, b, rest, rfl, hb⟩ | ⟨_, rfl,
      ⟨rfl, b, rest, rfl, hb⟩ | ⟨_, rfl, rfl, front, b, rest, t, rfl, hfront⟩⟩⟩)
    · exact Or.inl ⟨rfl, Or.inl hfirst⟩
    · exact Or.inl ⟨rfl, Or.inr ⟨b, rest, rfl, hb⟩⟩
    · exact Or.inr (Or.inl ⟨rfl, b, rest, rfl, hb⟩)
    · exact Or.inr (Or.inr ⟨rfl, _ :: _ :: _ :: front, b, rest, t, rfl,
        completes_magic.mpr ⟨front, rfl, hfront⟩⟩)
  · rintro (⟨rfl, hfirst | ⟨b, rest, rfl, hb⟩⟩ | ⟨rfl, b, rest, rfl, hb⟩ |
      ⟨rfl, front, b, rest, t, rfl, hfront⟩)
    · exact Or.inl ⟨rfl, hfirst⟩
    · exact Or.inr ⟨_, rfl, Or.inl ⟨rfl, b, rest, rfl, hb⟩⟩
    · exact Or.inr ⟨_, rfl, Or.inr ⟨_, rfl, Or.inl ⟨rfl, b, rest, rfl, hb⟩⟩⟩
    · obtain ⟨front', rfl, hfront'⟩ := completes_magic.mp hfront
      exact Or.inr ⟨_, rfl, Or.inr ⟨_, rfl, Or.inr ⟨_, rfl, rfl, front', b, rest, t, rfl, hfront'⟩⟩⟩

end Refused

end GzipHeader

end HttpServer
