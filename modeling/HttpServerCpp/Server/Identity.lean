import HttpServerCpp.Server.Lifetimes
import HttpServerCpp.Session.History

/-!
# Identifiers in use

Sessions take their identifiers from one generator of the process, and every `run()` of every
server stores zero into it.  Identifiers repeat as soon as a session is alive when that happens.

`unique_of_fresh` shows that there is no other cause, short of the generator or the request
counter of a session wrapping, and that handlers then never hold two requests with the same pair
of identifiers, as long as each writer is used at most once.
-/

namespace HttpServer

variable {H : Type}

namespace Process

/-- Live sessions have different identifiers, and so have the requests handed to the handlers of
live sessions. -/
structure UniqueIds (p : Process H) : Prop where
  sessions : ∀ i k i' k' t t', p.sessionAt i k = some t → p.sessionAt i' k' = some t' →
    t.1.alive = true → t'.1.alive = true → t.1.id = t'.1.id → i = i' ∧ k = k'
  requests : ∀ i k (j : Nat) i' k' (j' : Nat) t t' handler handler' request request',
    p.sessionAt i k = some t → p.sessionAt i' k' = some t' →
    t.1.alive = true → t'.1.alive = true →
    (dispatchesOf t.2)[j]? = some (.handle handler request) →
    (dispatchesOf t'.2)[j']? = some (.handle handler' request') →
    request.sessionId = request'.sessionId → request.requestId = request'.requestId →
      i = i' ∧ k = k' ∧ j = j'

/-- The steps that keep identifiers unique: no server is started while a session of the process
is alive, neither counter wraps, and no writer is used twice. -/
def fresh (p : Process H) (e : ProcessEvent) : Bool :=
  p.singleUse e &&
    match e.event with
    | .run _ =>
        match p.servers[e.server]? with
        | some srv => !srv.impl.opts.Valid || p.servers.all fun srv => srv.live = 0
        | none => true
    | .onAccept => p.sId.toNat + 1 < 2 ^ 64
    | .session k (.onRead (.message _)) =>
        (p.sessionAt e.server k).all fun t => t.1.readCount + 1 < 2 ^ 64
    | _ => true

/-! ## Where sessions come from -/

section Step

variable {boost : Boost} {p p' : Process H} {e : ProcessEvent}

/-- What became of a session. -/
structure Descends (t t' : Session × List (Output H)) : Prop where
  id : t'.1.id = t.1.id
  alive : t'.1.alive = true → t.1.alive = true

/-- A session after a step was there before it, or it is the one an accept has constructed. -/
lemma sessionAt_step (h : (lts boost).step p e = some p') {i k : Nat}
    {t' : Session × List (Output H)} (ht' : p'.sessionAt i k = some t') :
    (∃ t, p.sessionAt i k = some t ∧ Descends t t' ∧
      (t'.1.readCount = t.1.readCount ∨ ∃ m, e = ⟨i, .session k (.onRead (.message m))⟩ ∧
        t'.1.readCount = t.1.readCount + 1)) ∨
    ∃ srv, e = ⟨i, .onAccept⟩ ∧ p.servers[i]? = some srv ∧ k = srv.sessions.length ∧
      p'.sId = p.sId + 1 ∧ t' = Session.init (srv.ctx boost) p'.sId := by
  obtain ⟨srv, srv', hsrv, hsrv', hstep⟩ := step_self h
  obtain ⟨s', hs', hk⟩ := Option.bind_eq_some_iff.mp ht'
  have hsame : ∀ t, p.sessionAt i k = some t → t' = t →
      ∃ t, p.sessionAt i k = some t ∧ Descends t t' ∧
        (t'.1.readCount = t.1.readCount ∨ ∃ m, e = ⟨i, .session k (.onRead (.message m))⟩ ∧
          t'.1.readCount = t.1.readCount + 1) := by
    rintro t ht rfl
    exact ⟨t', ht, ⟨rfl, fun halive => halive⟩, .inl rfl⟩
  by_cases hi : e.server = i
  · subst hi
    obtain rfl := Option.some.inj (hs'.symm.trans hsrv')
    have hat : p.sessionAt e.server k = srv.sessions[k]? := by simp [sessionAt, hsrv]
    obtain ⟨i, event⟩ := e
    generalize p'.sId = sId' at hstep ⊢
    cases hstep with
    | started | idle => exact .inl (hsame t' (hat.trans hk) rfl)
    | accepted impl =>
        rcases getElem?_snoc hk with hk | ⟨rfl, rfl⟩
        · exact .inl (hsame t' (hat.trans hk) rfl)
        · exact .inr ⟨srv, rfl, hsrv, rfl, rfl, rfl⟩
    | session k' e' s s' log o hk' hs =>
        obtain ⟨halive, hcases⟩ := Session.step_cases hs
        simp only [Server.afterSession, List.getElem?_set] at hk
        split_ifs at hk with hkk hlt
        · obtain rfl := Option.some.inj hk
          subst hkk
          refine .inl ⟨(s, log), hat.trans hk', ⟨Session.id_step hcases, fun _ => halive⟩, ?_⟩
          cases hcases with
          | requestRead received => exact .inr ⟨received, rfl, rfl⟩
          | _ => exact .inl rfl
        · exact .inl (hsame t' (hat.trans hk) rfl)
  · have hat : p.sessionAt i k = some t' := by
      rw [sessionAt, ← step_other h hi]
      exact ht'
    exact .inl (hsame t' hat rfl)

/-- What a step does to the generator. -/
lemma sId_step (h : (lts boost).step p e = some p') :
    p'.sId = p.sId ∨ (e.event = .onAccept ∧ p'.sId = p.sId + 1) ∨
      ∃ env srv, e.event = .run env ∧ p.servers[e.server]? = some srv ∧ srv.impl.opts.Valid := by
  obtain ⟨srv, srv', hsrv, -, hstep⟩ := step_self h
  obtain ⟨i, event⟩ := e
  generalize p'.sId = sId' at hstep ⊢
  cases hstep with
  | started env impl serving hvalid => exact .inr (.inr ⟨env, srv, rfl, hsrv, hvalid⟩)
  | accepted => exact .inr (.inl ⟨rfl, rfl⟩)
  | idle | session => exact .inl rfl

/-- A process without live sessions. -/
lemma not_alive (h : p.servers.all (fun srv => srv.live = 0) = true) {i k : Nat}
    {t : Session × List (Output H)} (ht : p.sessionAt i k = some t) : ¬ t.1.alive = true := by
  obtain ⟨srv, hsrv, hk⟩ := Option.bind_eq_some_iff.mp ht
  have hlive : srv.live = 0 := by
    simpa using List.all_eq_true.mp h srv (List.mem_of_getElem? hsrv)
  exact Server.not_alive_of_live hlive hk

end Step

/-! ## The invariant -/

/-- Every live session has an identifier that the generator has passed, no two have the same, and
no session has read too many requests to number them. -/
structure Numbered (p : Process H) : Prop where
  bounded : ∀ i k t, p.sessionAt i k = some t → t.1.alive = true → t.1.id.toNat ≤ p.sId.toNat
  distinct : ∀ i k i' k' t t', p.sessionAt i k = some t → p.sessionAt i' k' = some t' →
    t.1.alive = true → t'.1.alive = true → t.1.id = t'.1.id → i = i' ∧ k = k'
  counted : ∀ i k t, p.sessionAt i k = some t → t.1.readCount < 2 ^ 64

variable {boost : Boost} {p p' : Process H} {e : ProcessEvent}

/-- No step numbers too many requests. -/
lemma Numbered.readCount_lt (h : Numbered p) (hfresh : p.fresh e = true)
    (hstep : (lts boost).step p e = some p') {i k : Nat} {t' : Session × List (Output H)}
    (ht' : p'.sessionAt i k = some t') : t'.1.readCount < 2 ^ 64 := by
  obtain ⟨-, hevent⟩ := Bool.and_eq_true_iff.mp hfresh
  rcases sessionAt_step hstep ht' with ⟨t, ht, -, hcount⟩ | ⟨srv, -, -, -, -, rfl⟩
  · rcases hcount with hcount | ⟨m, rfl, hcount⟩
    · rw [hcount]
      exact h.counted i k t ht
    · rw [hcount]
      simpa [ht] using hevent
  · exact Nat.two_pow_pos 64

/-- An accept moves the generator forward. -/
lemma toNat_sId_succ (hfresh : p.fresh e = true) (haccept : e.event = .onAccept) :
    (p.sId + 1).toNat = p.sId.toNat + 1 := by
  obtain ⟨-, hevent⟩ := Bool.and_eq_true_iff.mp hfresh
  rw [UInt64.toNat_add]
  exact Nat.mod_eq_of_lt (by simpa [haccept] using hevent)

/-- A live session keeps its identifier, or an accept has numbered it above all others. -/
lemma Numbered.sessionAt_step (h : Numbered p) (hfresh : p.fresh e = true)
    (hstep : (lts boost).step p e = some p') {i k : Nat} {t' : Session × List (Output H)}
    (ht' : p'.sessionAt i k = some t') (halive : t'.1.alive = true) :
    (∃ t, p.sessionAt i k = some t ∧ t'.1.id = t.1.id ∧ t.1.alive = true ∧
      t.1.id.toNat ≤ p.sId.toNat) ∨
    ∃ srv, e = ⟨i, .onAccept⟩ ∧ p.servers[i]? = some srv ∧ k = srv.sessions.length ∧
      p'.sId.toNat = p.sId.toNat + 1 ∧ t'.1.id = p'.sId := by
  rcases Process.sessionAt_step hstep ht' with ⟨t, ht, hd, -⟩ | ⟨srv, rfl, hsrv, hk, hid, rfl⟩
  · exact .inl ⟨t, ht, hd.id, hd.alive halive, h.bounded i k t ht (hd.alive halive)⟩
  · exact .inr ⟨srv, rfl, hsrv, hk, by rw [hid, toNat_sId_succ hfresh rfl], rfl⟩

/-- While the generator does not go back, the old sessions stay below the new one. -/
lemma Numbered.forward (h : Numbered p) (hfresh : p.fresh e = true)
    (hstep : (lts boost).step p e = some p') (hle : p.sId.toNat ≤ p'.sId.toNat) :
    Numbered p' := by
  refine ⟨?_, ?_, fun i k t' => h.readCount_lt hfresh hstep⟩
  · intro i k t' ht' halive
    rcases h.sessionAt_step hfresh hstep ht' halive with
      ⟨t, -, hid, -, hbound⟩ | ⟨srv, -, -, -, -, hid⟩
    · rw [hid]
      exact hbound.trans hle
    · rw [hid]
  · intro i k i' k' t u ht hu halive halive' hid
    rcases h.sessionAt_step hfresh hstep ht halive with
      ⟨t₀, ht₀, hidt, hlivet, hboundt⟩ | ⟨srv, rfl, hsrv, hk, hnew, hidt⟩ <;>
    rcases h.sessionAt_step hfresh hstep hu halive' with
      ⟨u₀, hu₀, hidu, hliveu, hboundu⟩ | ⟨srv', he, hsrv', hk', hnew', hidu⟩
    · exact h.distinct i k i' k' t₀ u₀ ht₀ hu₀ hlivet hliveu (by rw [← hidt, ← hidu, hid])
    · rw [hidt, hidu] at hid
      rw [hid] at hboundt
      omega
    · rw [hidt, hidu] at hid
      rw [← hid] at hboundu
      omega
    · obtain rfl : i = i' := congrArg ProcessEvent.server he
      obtain rfl := Option.some.inj (hsrv.symm.trans hsrv')
      exact ⟨rfl, hk.trans hk'.symm⟩

lemma Numbered.step (h : Numbered p) (hfresh : p.fresh e = true)
    (hstep : (lts boost).step p e = some p') : Numbered p' := by
  rcases sId_step hstep with hsId | ⟨haccept, hsId⟩ | ⟨env, srv, hrun, hsrv, hvalid⟩
  · exact h.forward hfresh hstep (by rw [hsId])
  · refine h.forward hfresh hstep ?_
    rw [hsId, toNat_sId_succ hfresh haccept]
    omega
  · -- the generator was reset, but there was no live session
    obtain ⟨-, hevent⟩ := Bool.and_eq_true_iff.mp hfresh
    have hnone : p.servers.all (fun srv => srv.live = 0) = true := by
      simpa [hrun, hsrv, hvalid] using hevent
    have hdead : ∀ i k t', p'.sessionAt i k = some t' → ¬ t'.1.alive = true := by
      intro i k t' ht' halive
      rcases Process.sessionAt_step hstep ht' with ⟨t, ht, hd, -⟩ | ⟨_, rfl, -⟩
      · exact not_alive hnone ht (hd.alive halive)
      · cases hrun
    exact ⟨fun i k t ht halive => absurd halive (hdead i k t ht),
      fun i k i' k' t t' ht ht' halive => absurd halive (hdead i k t ht),
      fun i k t' => h.readCount_lt hfresh hstep⟩

/-! ## The result -/

/-- The process in which identifiers stay unique. -/
def freshly (boost : Boost) : LTS (Process H) ProcessEvent :=
  (lts boost).restrict fun p e => p.fresh e = true

lemma run_numbered {servers : List (HttpServerOptions × HttpRouter H)} {es : List ProcessEvent}
    (h : (freshly boost).run (start servers) es = some p) : Numbered p := by
  refine LTS.run_invariant (P := Numbered) ?_ ?_ h
  · have hnone : ∀ i k t, ¬ (start servers).sessionAt i k = some t := by
      intro i k t ht
      obtain ⟨srv, hsrv, hk⟩ := Option.bind_eq_some_iff.mp ht
      simp only [start, List.getElem?_map, Option.map_eq_some_iff] at hsrv
      obtain ⟨c, -, rfl⟩ := hsrv
      cases hk
    exact ⟨fun i k t ht => absurd ht (hnone i k t),
      fun i k i' k' t t' ht => absurd ht (hnone i k t), fun i k t ht => absurd ht (hnone i k t)⟩
  · intro p e p' hp hstep
    obtain ⟨hfresh, hstep⟩ := LTS.restrict_step.mp hstep
    exact hp.step hfresh hstep

/-- A request that a handler received carries the identifier of its session and its number. -/
lemma handled_ids {servers : List (HttpServerOptions × HttpRouter H)} {es : List ProcessEvent}
    (h : (freshly boost).run (start servers) es = some p) {i k j : Nat}
    {t : Session × List (Output H)} {handler : H} {request : HttpRequest}
    (ht : p.sessionAt i k = some t)
    (hj : (dispatchesOf t.2)[j]? = some (.handle handler request)) :
    request.sessionId = t.1.id ∧ request.requestId.toNat = j + 1 := by
  obtain ⟨srv, hsrv, hk⟩ := Option.bind_eq_some_iff.mp ht
  have hsingle : ∀ (p : Process H) e, p.fresh e = true → p.singleUse e = true :=
    fun p e hfresh => (Bool.and_eq_true_iff.mp hfresh).1
  obtain ⟨es', hes'⟩ := run_sessions hsingle h hsrv t (List.mem_of_getElem? hk)
  obtain ⟨m, now, hm, hd⟩ := (Session.run_recorded es' t hes').ledger.dispatched j _ hj
  obtain ⟨hsid, hrid⟩ := Context.dispatch_handle hd.symm
  have hcount := Session.run_readCount es' t (LTS.run_of_restrict es' t hes')
  have hlt : j < (receivedOf t.2).length := (List.getElem?_eq_some_iff.mp hm).1
  have hbound := (run_numbered h).counted i k t ht
  have hsize : UInt64.size = 2 ^ 64 := rfl
  refine ⟨hsid, ?_⟩
  rw [hrid, UInt64.toNat_ofNat_of_lt' (by omega)]

/-- **Identifiers are unique while in use** in every run in which no server is started while a
session is alive, no counter wraps and no writer is used twice. -/
theorem unique_of_fresh (boost : Boost) (servers : List (HttpServerOptions × HttpRouter H))
    (es : List ProcessEvent) (p : Process H) (h : (freshly boost).run (start servers) es = some p) :
    UniqueIds p := by
  have hdistinct := (run_numbered h).distinct
  refine ⟨hdistinct, ?_⟩
  intro i k j i' k' j' t t' handler handler' request request' ht ht' halive halive' hj hj' hsid hrid
  obtain ⟨hs, hr⟩ := handled_ids h ht hj
  obtain ⟨hs', hr'⟩ := handled_ids h ht' hj'
  obtain ⟨hi, hk⟩ := hdistinct i k i' k' t t' ht ht' halive halive' (by rw [← hs, ← hs', hsid])
  rw [hrid, hr'] at hr
  exact ⟨hi, hk, by omega⟩

theorem unique_of_fresh_hello :
    ∃ p, (freshly plainBoost).run (start helloServers) keptWriter = some p ∧ UniqueIds p :=
  ⟨_, rfl, unique_of_fresh plainBoost helloServers keptWriter _ rfl⟩

/-- The server is stopped and started again while the handler of `/hello` keeps its writer, and
accepts another connection: two live sessions have identifier 1, and when the second one has read
`GET /hello` as well, two handler calls have received the identifiers 1 and 1. -/
theorem restart_repeats_ids :
    ∃ p t t' request request', (lts plainBoost).run (start helloServers)
        (keptWriter ++ [⟨0, .stop⟩, ⟨0, .run {}⟩, ⟨0, .acceptDone .connection⟩, ⟨0, .onAccept⟩,
          ⟨0, .onAccept⟩, ⟨0, .session 1 (.onRead (.message (getRequest "/hello")))⟩,
          ⟨0, .session 1 (.processRequest 0)⟩]) = some p ∧
      p.sessionAt 0 0 = some t ∧ p.sessionAt 0 1 = some t' ∧
      t.1.alive = true ∧ t'.1.alive = true ∧ t.1.id = 1 ∧ t'.1.id = 1 ∧
      dispatchesOf t.2 = [.handle () request] ∧ dispatchesOf t'.2 = [.handle () request'] ∧
      request.requestId = 1 ∧ request'.requestId = 1 ∧ ¬ UniqueIds p :=
  ⟨_, _, _, _, _, rfl, rfl, rfl, rfl, rfl, rfl, rfl, rfl, rfl, rfl, rfl,
    fun h => absurd (h.sessions 0 0 0 1 _ _ rfl rfl rfl rfl rfl).2 (by decide)⟩

end Process

end HttpServer
