import HttpServerCpp.Core.BoundedReader
import HttpServerCpp.Server.FailedRun
import HttpServerCpp.Session.InFlight

/-!
# The limit on the size of a request

`max_request_size_` is documented as the length from which on a request closes the connection.
What the session does with it is to give its buffer that capacity; `async_read` reads into this
buffer while the parser of Beast takes the header out of it when it is complete, and body octets as
they arrive.  The parser has a body limit of its own, of 1 MiB.

`enforced_iff` says for which requests the two together come to what is documented.
-/

namespace HttpServer

variable {H : Type}

/-- The limits of Beast's request parser. -/
def headerLimit : Nat := 8192
def bodyLimit : Nat := 1048576

/-- A well-formed request on the wire, by the sizes of its parts: a header within the limit of the
parser, and what follows it (the body, or chunks with their lines). -/
structure WireRequest where
  header : Nat
  body : List Piece
  header_le : header ≤ headerLimit

namespace WireRequest

def pieces (w : WireRequest) : List Piece := .whole w.header :: w.body

/-- The length of the request. -/
def size (w : WireRequest) : Nat := messageSize w.pieces

end WireRequest

/-- How the `async_read` of a message ends in a state of the reader, if it has ended. -/
def Reader.result (received : RequestMessage) : Reader → Option ReadResult
  | .reading _ _ _ => none
  | .done _ => some (.message received)
  | .failed _ => some .error

namespace Session

/-- `async_read` on the buffer of a session, which may hold octets that came with the last
request. -/
def reader (opts : HttpServerOptions) (w : WireRequest) (buffered : Nat) : Reader :=
  .parse opts.maxRequestSize.toNat w.pieces buffered bodyLimit

/-- The session goes on to `processRequest` with the request. -/
def Accepts (s : Session) (received : RequestMessage) (s' : Session) : Prop :=
  s'.strand = .processing ∧ s'.request = s.request.readInto received

/-- The session counts a failed read and closes the connection. -/
def Refuses (s' : Session) (o : List (Output H)) : Prop :=
  s'.strand = .idle ∧ s'.isOpen = false ∧ o = [.readEnded, .inc .readFail]

/-- **What is documented of the limit**, for one request: as long as the read goes on there are
octets to come, and when it ends the session accepts a request within the limit and refuses one
that exceeds it, whatever the sizes of the reads. -/
def Enforced (ctx : Context H) (s : Session) (received : RequestMessage) (w : WireRequest)
    (buffered : Nat) : Prop :=
  ∀ arrivals r, (Reader.lts ctx.opts.maxRequestSize.toNat).run (reader ctx.opts w buffered)
      arrivals = some r →
    (r.result received = none → buffered + arrivals.sum < w.size) ∧
    ∀ result, r.result received = some result →
      ∃ s' o, step ctx s (.onRead result) = some (s', o) ∧
        (w.size ≤ ctx.opts.maxRequestSize.toNat → Accepts s received s') ∧
        (ctx.opts.maxRequestSize.toNat < w.size → Refuses s' o)

section Enforced

variable {ctx : Context H} {s : Session} (halive : s.alive = true) (hidle : s.strand = .idle)
  (hreads : 0 < s.reads)
include halive hidle hreads

/-- A read that is outstanding can end in any way. -/
lemma step_onRead (ctx : Context H) (result : ReadResult) :
    step ctx s (.onRead result) = some (onRead { s with reads := s.reads - 1 } result) := by
  simp [step, stepAlive, halive, hidle, hreads]

/-- A message that was read is accepted, so it must not have been one to refuse. -/
lemma accepted_iff (ctx : Context H) (received : RequestMessage) {p q : Prop} :
    (∃ s' o, step ctx s (.onRead (.message received)) = some (s', o) ∧
      (p → Accepts s received s') ∧ (q → Refuses s' o)) ↔ ¬ q := by
  rw [step_onRead halive hidle hreads]
  constructor
  · rintro ⟨s', o, hstep, -, hrefuses⟩ hq
    cases hstep
    cases (hrefuses hq).1
  · intro hq
    exact ⟨_, _, rfl, fun _ => ⟨rfl, rfl⟩, fun h => absurd h hq⟩

/-- A read that failed is refused, so there must not have been a message to accept. -/
lemma refused_iff (ctx : Context H) (received : RequestMessage) {p q : Prop} :
    (∃ s' o, step ctx s (.onRead .error) = some (s', o) ∧
      (p → Accepts s received s') ∧ (q → Refuses s' o)) ↔ ¬ p := by
  rw [step_onRead halive hidle hreads]
  constructor
  · rintro ⟨s', o, hstep, haccepts, -⟩ hp
    cases hstep
    have hstrand : s.strand = .processing := (haccepts hp).1
    rw [hidle] at hstrand
    cases hstrand
  · intro hp
    exact ⟨_, _, rfl, fun h => absurd h hp, fun _ => ⟨hidle, rfl, rfl⟩⟩

/-- The limit is enforced on a request exactly when the reader takes the requests within it. -/
lemma enforced_iff_fits (hvalid : ctx.opts.Valid) (received : RequestMessage) (w : WireRequest)
    {buffered : Nat} (hbuffered : buffered ≤ ctx.opts.maxRequestSize.toNat) :
    Enforced ctx s received w buffered ↔
      (w.size ≤ ctx.opts.maxRequestSize.toNat ↔
        Fits ctx.opts.maxRequestSize.toNat bodyLimit w.pieces) := by
  have hcapacity : 0 < ctx.opts.maxRequestSize.toNat := by
    refine Nat.pos_of_ne_zero fun hzero => hvalid.2.1 ?_
    rw [← UInt64.toNat_inj, hzero]
    rfl
  constructor
  · intro h
    obtain ⟨arrivals, r, hrun, hdecided⟩ := Reader.exists_decided hcapacity w.pieces hbuffered
    have hmeets := Reader.run_meets hcapacity hbuffered arrivals r hrun
    have hends := (h arrivals r hrun).2
    cases r with
    | reading pieces' buffered' limit' => exact hdecided.elim
    | done left =>
        have hle := (accepted_iff halive hidle hreads ctx received).mp (hends _ rfl)
        exact iff_of_true (not_lt.mp hle) hmeets.1
    | failed e =>
        exact iff_of_false ((refused_iff halive hidle hreads ctx received).mp (hends _ rfl)) hmeets
  · intro h arrivals r hrun
    have hmeets := Reader.run_meets hcapacity hbuffered arrivals r hrun
    cases r with
    | reading pieces' buffered' limit' =>
        refine ⟨fun _ => ?_, fun _ hresult => (nomatch hresult)⟩
        obtain ⟨-, -, hlt, hcount⟩ := hmeets
        show _ < messageSize w.pieces
        omega
    | done left =>
        refine ⟨fun hnone => (nomatch hnone), ?_⟩
        rintro _ ⟨⟩
        rw [accepted_iff halive hidle hreads]
        exact not_lt.mpr (h.mpr hmeets.1)
    | failed e =>
        refine ⟨fun hnone => (nomatch hnone), ?_⟩
        rintro _ ⟨⟩
        rw [refused_iff halive hidle hreads]
        exact fun hle => hmeets (h.mp hle)

end Enforced

/-- **What the code enforces.**  For a session that waits for a request: the documented limit
holds for it exactly when it is within both limits, or exceeds `max_request_size_` and also has
a header or line that does not fit into the buffer, or a body over the limit of the parser. -/
theorem enforced_iff (ctx : Context H) (hvalid : ctx.opts.Valid) (s : Session)
    (halive : s.alive = true) (hidle : s.strand = .idle) (hreads : 0 < s.reads)
    (received : RequestMessage) (w : WireRequest) (buffered : Nat)
    (hbuffered : buffered ≤ ctx.opts.maxRequestSize.toNat) :
    Enforced ctx s received w buffered ↔
      (w.size ≤ ctx.opts.maxRequestSize.toNat ∧ bodySize w.pieces ≤ bodyLimit) ∨
      (ctx.opts.maxRequestSize.toNat < w.size ∧
        ((∃ n, .whole n ∈ w.pieces ∧ ctx.opts.maxRequestSize.toNat < n) ∨
          bodyLimit < bodySize w.pieces)) := by
  rw [enforced_iff_fits halive hidle hreads hvalid received w hbuffered]
  by_cases hsize : w.size ≤ ctx.opts.maxRequestSize.toNat
  · -- its parts are no longer than the request
    have hfits : Fits ctx.opts.maxRequestSize.toNat bodyLimit w.pieces ↔
        bodySize w.pieces ≤ bodyLimit :=
      ⟨fun h => h.body_le, fun h => ⟨fun n hn => (whole_le_messageSize hn).trans hsize, h⟩⟩
    simp [hfits, hsize, not_lt.mpr hsize]
  · have hfits : ¬ Fits ctx.opts.maxRequestSize.toNat bodyLimit w.pieces ↔
        (∃ n, .whole n ∈ w.pieces ∧ ctx.opts.maxRequestSize.toNat < n) ∨
          bodyLimit < bodySize w.pieces := by
      constructor
      · intro h
        by_contra hnone
        push Not at hnone
        exact h ⟨hnone.1, hnone.2⟩
      · rintro (⟨n, hn, hlt⟩ | hlt) h
        · exact absurd (h.whole_le n hn) (not_le.mpr hlt)
        · exact absurd h.body_le (not_le.mpr hlt)
    simp [hsize, not_le.mp hsize, hfits]

/-- A request with a header of `header` octets and a body of `n`. -/
def bodyRequest (header n : Nat) (h : header ≤ headerLimit) : WireRequest := ⟨header, [.octets n], h⟩

/-- The server with a buffer of a hundred octets. -/
def smallContext : Context Unit := { helloContext with opts := { maxRequestSize := 100 } }

/-- With twenty octets left in the buffer: a request of eighty octets, and one whose header does not
fit into the buffer. -/
theorem enforced_iff_hello :
    Enforced smallContext (start smallContext 1) (getRequest "/hello")
        (bodyRequest 50 30 (by decide)) 20 ∧
      Enforced smallContext (start smallContext 1) (getRequest "/hello")
        (bodyRequest 150 30 (by decide)) 20 :=
  ⟨(enforced_iff smallContext (by decide) (start smallContext 1) rfl rfl Nat.one_pos
      (getRequest "/hello") (bodyRequest 50 30 (by decide)) 20 (by decide)).mpr
      (Or.inl ⟨by decide, by decide⟩),
    (enforced_iff smallContext (by decide) (start smallContext 1) rfl rfl Nat.one_pos
      (getRequest "/hello") (bodyRequest 150 30 (by decide)) 20 (by decide)).mpr
      (Or.inr ⟨by decide, Or.inl ⟨150, List.mem_cons_self, by decide⟩⟩)⟩

/-- With the default options a body of 1.5 MiB is refused, although the request is shorter than
2 MiB; with a limit of a hundred octets a request of two hundred and fifty is accepted, its body
passing through the buffer while it arrives. -/
theorem limit_not_enforced :
    ¬ Enforced helloContext (start helloContext 1) (getRequest "/hello")
        (bodyRequest 100 1572864 (by decide)) 0 ∧
      ¬ Enforced smallContext (start smallContext 1) (getRequest "/hello")
        (bodyRequest 50 200 (by decide)) 0 := by
  constructor
  · intro h
    obtain ⟨s', o, hstep, haccepts, -⟩ := (h [100] (.failed .bodyLimit) (by decide)).2 .error rfl
    cases hstep
    cases (haccepts (by decide)).1
  · intro h
    obtain ⟨s', o, hstep, -, hrefuses⟩ :=
      (h [100, 100, 50] (.done 0) (by decide)).2 (.message (getRequest "/hello")) rfl
    cases hstep
    cases (hrefuses (by decide)).1

end Session

end HttpServer
