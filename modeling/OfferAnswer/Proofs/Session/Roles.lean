import OfferAnswer.Proofs.Session.Agreement
import OfferAnswer.Proofs.Session.Conclusion

/-!
# Roles that were signalled, and roles that are played

Every secured section of an exchange signals which side opens the handshake, and then its endpoint
is given a secure channel with our role in that. A section alone on an endpoint plays what it
signals. But the peer may bundle sections and signal different things in them. The endpoint is
secured once for each, and the last time counts, so an endpoint plays what the last section on it
signals, whatever we write in the others.

So what matters is order: sections ask for channels in the order of the description (`Asks`), and of
the channels for an endpoint the last one stays (`sides_of_last`).
-/

namespace OfferAnswer

namespace Session

variable {s s' base : Session} {b : TransportBinding} {remote answer : Description}
  {signalled : Nat → Option DtlsRole} {c : DtlsCertificate} {id : EndpointId} {i : Nat}

/-! ## The last channel counts -/

theorem sides_of_last {before after : List Channel} {c : Channel} {e : Endpoint}
    (he : e ∈ (setChannels b (before ++ c :: after)).endpoints) (hc : c.endpoint = e.id)
    (hlast : ∀ c' ∈ after, c'.endpoint ≠ e.id) :
    e.encrypt = some c.side ∧ e.decrypt = some c.side := by
  have hsplit : setChannels b (before ++ c :: after) =
      setChannels ((setChannels b before).setSecure c.endpoint c.side) after := by
    rw [setChannels, List.foldl_append, List.foldl_cons]
    rfl
  rw [hsplit] at he
  rcases mem_setChannels he with ⟨c', hc', heq, -⟩ | ⟨-, e₁, he₁, hid, henc, hdec⟩
  · exact absurd heq (hlast c' hc')
  · obtain ⟨e₀, -, rfl⟩ := TransportBinding.mem_update.mp he₁
    rw [← hc] at hid
    by_cases hsame : e₀.id = c.endpoint
    · rw [if_pos hsame] at henc hdec
      exact ⟨henc.symm, hdec.symm⟩
    · rw [if_neg hsame] at hid
      exact absurd hid hsame

theorem exists_last {α : Type} {p : α → Prop} {l : List α} (h : ∃ x ∈ l, p x) :
    ∃ before x after, l = before ++ x :: after ∧ p x ∧ ∀ y ∈ after, ¬p y := by
  induction l with
  | nil => exact absurd h (by simp)
  | cons z l ih =>
    by_cases hrest : ∃ x ∈ l, p x
    · obtain ⟨before, x, after, rfl, hx, hlast⟩ := ih hrest
      exact ⟨z :: before, x, after, rfl, hx, hlast⟩
    · obtain ⟨x, hx, hpx⟩ := h
      rcases List.mem_cons.mp hx with rfl | hx
      · exact ⟨[], x, l, rfl, hpx, fun y hy hpy ↦ hrest ⟨y, hy, hpy⟩⟩
      · exact absurd ⟨x, hx, hpx⟩ hrest

/-! ## What sections ask for, in order -/

theorem mem_of_asked {asked : List (Option (EndpointId × Setup))} {x : EndpointId × Setup}
    (h : asked[i]? = some (some x)) : x ∈ asked.flatMap Option.toList :=
  List.mem_flatMap.mpr ⟨some x, List.mem_of_getElem? h, List.mem_singleton_self x⟩

theorem outcomes_asked (s : Session) (remote : Description) (i : Nat)
    (qs : List (Planned × Option Setup)) (os as : List Section) (hos : os.length = qs.length)
    (has : as.length = qs.length) :
    ∃ asked : List (Option (EndpointId × Setup)),
      (s.outcomes remote i qs os as).2 = asked.flatMap Option.toList ∧
        ∀ (j : Nat) x, asked[j]? = some x ↔ ∃ q o a, qs[j]? = some q ∧ os[j]? = some o ∧
          as[j]? = some a ∧ x = (s.outcome (midAt remote (i + j)) q.1.handler q.2 o a).2 := by
  induction qs generalizing i os as with
  | nil =>
    obtain rfl := List.eq_nil_of_length_eq_zero hos
    obtain rfl := List.eq_nil_of_length_eq_zero has
    refine ⟨[], rfl, fun j x ↦ ?_⟩
    constructor
    · intro hx
      cases hx
    · rintro ⟨_, _, _, hq, -⟩
      cases hq
  | cons q qs ih =>
    obtain ⟨o, os, rfl⟩ := List.exists_cons_of_length_eq_add_one hos
    obtain ⟨a, as, rfl⟩ := List.exists_cons_of_length_eq_add_one has
    obtain ⟨asked, hasked, hget⟩ := ih (i + 1) os as (Nat.succ.inj hos) (Nat.succ.inj has)
    refine ⟨(s.outcome (midAt remote i) q.1.handler q.2 o a).2 :: asked, ?_, fun j x ↦ ?_⟩
    · rw [outcomes, List.flatMap_cons, ← hasked]
    · cases j with
      | zero =>
        constructor
        · intro hx
          exact ⟨q, o, a, rfl, rfl, rfl, (Option.some_inj.mp hx).symm⟩
        · rintro ⟨q', o', a', hq, ho, ha, rfl⟩
          cases hq
          cases ho
          cases ha
          rfl
      | succ j =>
        rw [List.getElem?_cons_succ, hget, Nat.add_right_comm]
        rfl

theorem settleSections_asked {pending : PendingOffer} {pairs : List (Section × Section)}
    {outcomes : List NegotiatedMedia × List (EndpointId × Setup)}
    (h : s.settleSections pending answer i pairs = .ok outcomes) :
    ∃ asked : List (Option (EndpointId × Setup)), outcomes.2 = asked.flatMap Option.toList ∧
      ∀ (j : Nat) x, asked[j]? = some x ↔ ∃ p n, pairs[j]? = some p ∧
        s.settleSection pending answer (i + j) p.1 p.2 = .ok (n, x) := by
  induction pairs generalizing i outcomes with
  | nil =>
    cases h
    refine ⟨[], rfl, fun j x ↦ ?_⟩
    constructor
    · intro hx
      cases hx
    · rintro ⟨_, _, hp, -⟩
      cases hp
  | cons p pairs ih =>
    rw [settleSections] at h
    cases hone : s.settleSection pending answer i p.1 p.2 with
    | error e =>
      rw [hone] at h
      cases h
    | ok one =>
      rw [hone] at h
      dsimp only at h
      cases hrest : s.settleSections pending answer (i + 1) pairs with
      | error e =>
        rw [hrest] at h
        cases h
      | ok rest =>
        rw [hrest] at h
        cases h
        -- what the first section asks for stands in front of what the others do
        obtain ⟨asked, hasked, hget⟩ := ih hrest
        refine ⟨one.2 :: asked, ?_, fun j x ↦ ?_⟩
        · rw [List.flatMap_cons, ← hasked]
        · cases j with
          | zero =>
            constructor
            · intro hx
              cases hx
              exact ⟨p, one.1, rfl, hone⟩
            · rintro ⟨p', n, hp, hsettle⟩
              cases hp
              rw [Nat.add_zero, hone, Except.ok.injEq] at hsettle
              rw [List.getElem?_cons_zero, hsettle]
          | succ j =>
            rw [List.getElem?_cons_succ, hget, Nat.add_right_comm]
            rfl

/-- Whether a section is accepted on an endpoint, and its protocol needs a secure channel. -/
def IsSecuredOn (s : Session) (remote : Description) (id : EndpointId) (i : Nat) : Prop :=
  ∃ n m, s.negotiated[i]? = some n ∧ remote.sections[i]? = some m ∧ n.rejected = false ∧
    n.endpoint = some id ∧ isSecure m.proto = true

/-- The secure channels that sections ask for right before the commit: those that are accepted and
need one, each on its endpoint, with a settled setup that names the role it has signalled. -/
structure Asks (s base s' : Session) (remote : Description) (signalled : Nat → Option DtlsRole)
    (asked : List (Option (EndpointId × Setup))) : Prop where
  /-- Endpoints have been given these channels, in order. -/
  applied : ∃ b, base.transport =
    setChannels b ((asked.flatMap Option.toList).filterMap s.channelFor?)
  /-- Sections ask on the endpoint where they are. -/
  iff_secured : ∀ i id, (∃ setup, asked[i]? = some (some (id, setup))) ↔ IsSecuredOn s' remote id i
  /-- They ask for what they signal. -/
  signalled_eq : ∀ i x, asked[i]? = some (some x) → x.2 ≠ .actPass ∧ signalled i = x.2.role?

/-! ## What endpoints play -/

/-- Whether an endpoint is live and plays the role that a section has signalled, in a secure channel
of this session with its certificate. -/
def PlaysSignalled (s s' : Session) (c : DtlsCertificate) (signalled : Nat → Option DtlsRole)
    (id : EndpointId) (i : Nat) : Prop :=
  ∃ e role, s'.transport.endpoint? id = some e ∧ signalled i = some role ∧
    e.encrypt = some ⟨role, c.pem, s.channelId id⟩ ∧ e.decrypt = some ⟨role, c.pem, s.channelId id⟩

/-- Whether the last section that is secured on an endpoint has signalled what this one has. -/
def LastAgrees (s' : Session) (remote : Description) (signalled : Nat → Option DtlsRole)
    (id : EndpointId) (i : Nat) : Prop :=
  ∀ j, IsSecuredOn s' remote id j → (∀ k, j < k → ¬IsSecuredOn s' remote id k) →
    signalled j = signalled i

theorem Concludes.sides (h : Concludes s base s' remote answer) :
    TransportBinding.SidesFrom base.transport s'.transport := by
  obtain ⟨ports, positions, htransport, -⟩ := h.committed
  rw [htransport]
  exact (committed_commit h.exclusive ports remote answer s'.negotiated positions).sides

/-- There is a last section that is secured on an endpoint, and what it has signalled is played
there as long as the endpoint is live. -/
theorem Concludes.exists_deciding (h : Concludes s base s' remote answer)
    {asked : List (Option (EndpointId × Setup))} (hasks : Asks s base s' remote signalled asked)
    (hc : s.config.certificate = some c) (hi : IsSecuredOn s' remote id i) :
    ∃ j role, IsSecuredOn s' remote id j ∧ (∀ k, j < k → ¬IsSecuredOn s' remote id k) ∧
      signalled j = some role ∧ ∀ e ∈ s'.transport.endpoints, e.id = id →
        e.encrypt = some ⟨role, c.pem, s.channelId id⟩ ∧
          e.decrypt = some ⟨role, c.pem, s.channelId id⟩ := by
  obtain ⟨setup₀, hi⟩ := (hasks.iff_secured i id).mpr hi
  have hexists : ∃ x ∈ asked, ∃ setup, x = some (id, setup) :=
    ⟨_, List.mem_of_getElem? hi, setup₀, rfl⟩
  obtain ⟨before, _, after, hasked, ⟨setup, rfl⟩, hlast⟩ := exists_last hexists
  have hj : asked[before.length]? = some (some (id, setup)) := by
    rw [hasked, List.getElem?_append_right (Nat.le_refl _), Nat.sub_self, List.getElem?_cons_zero]
  obtain ⟨hsettled, hsignalled⟩ := hasks.signalled_eq _ _ hj
  obtain ⟨role, hrole⟩ := Option.ne_none_iff_exists'.mp (Setup.role?_ne_none hsettled)
  refine ⟨before.length, role, (hasks.iff_secured _ id).mp ⟨setup, hj⟩, fun k hk hsecured ↦ ?_,
    hsignalled.trans hrole, fun e he hid ↦ ?_⟩
  · obtain ⟨setup', hk'⟩ := (hasks.iff_secured k id).mpr hsecured
    rw [hasked, List.getElem?_append_right (Nat.le_of_lt hk), List.getElem?_cons,
      if_neg (Nat.sub_ne_zero_of_lt hk)] at hk'
    exact hlast _ (List.mem_of_getElem? hk') ⟨setup', rfl⟩
  · obtain ⟨e₀, he₀, hid₀, henc, hdec⟩ := h.sides e he
    obtain ⟨b, hb⟩ := hasks.applied
    have hchannel : s.channelFor? (id, setup) = some ⟨id, ⟨role, c.pem, s.channelId id⟩⟩ :=
      channelFor?_eq hc hrole id
    rw [hb, hasked, List.flatMap_append, List.flatMap_cons, Option.toList_some,
      List.filterMap_append, List.filterMap_append, List.filterMap_cons_some hchannel,
      List.filterMap_nil, List.singleton_append] at he₀
    rw [← henc, ← hdec]
    refine sides_of_last he₀ (hid₀.trans hid).symm fun c' hc' heq ↦ ?_
    -- a later channel for this endpoint would come from a later section on it
    obtain ⟨x, hx, hfor⟩ := List.mem_filterMap.mp hc'
    obtain ⟨y, hy, hxy⟩ := List.mem_flatMap.mp hx
    obtain rfl := Option.mem_toList.mp hxy
    obtain ⟨cert, -, hmap⟩ := Option.bind_eq_some_iff.mp hfor
    obtain ⟨role', -, rfl⟩ := Option.map_eq_some_iff.mp hmap
    exact hlast _ hy ⟨x.2, congrArg (fun i ↦ some (i, x.2)) (heq.trans (hid₀.trans hid))⟩

/-- **The last section on an endpoint decides** which role is played there. -/
theorem Concludes.playsSignalled_iff (h : Concludes s base s' remote answer)
    {asked : List (Option (EndpointId × Setup))} (hasks : Asks s base s' remote signalled asked)
    (hc : s.config.certificate = some c) (hi : IsSecuredOn s' remote id i) :
    PlaysSignalled s s' c signalled id i ↔
      s'.transport.isAlive id = true ∧ LastAgrees s' remote signalled id i := by
  obtain ⟨j, role, hj, hlast, hsignalled, hplays⟩ := h.exists_deciding hasks hc hi
  constructor
  · rintro ⟨e, role', he, hsignalled', henc, -⟩
    refine ⟨TransportBinding.isAlive_iff_endpoint?.mpr ⟨e, he⟩, fun j' hj' hlast' ↦ ?_⟩
    -- there is one last section only
    obtain rfl : j' = j := Nat.le_antisymm
      (Nat.le_of_not_lt fun hlt ↦ hlast j' hlt hj') (Nat.le_of_not_lt fun hlt ↦ hlast' j hlt hj)
    obtain ⟨henc', -⟩ := hplays e (TransportBinding.mem_of_endpoint? he)
      (TransportBinding.id_of_endpoint? he)
    rw [henc', Option.some_inj, SecureSide.mk.injEq] at henc
    rw [hsignalled, hsignalled', henc.1]
  · rintro ⟨halive, hagrees⟩
    obtain ⟨e, he⟩ := TransportBinding.isAlive_iff_endpoint?.mp halive
    obtain ⟨henc, hdec⟩ := hplays e (TransportBinding.mem_of_endpoint? he)
      (TransportBinding.id_of_endpoint? he)
    exact ⟨e, role, he, (hagrees j hj hlast).symm.trans hsignalled, henc, hdec⟩

end Session

/-! ## Answering an offer -/

namespace Answering

open Session

variable {s : Session} {remote : Description} {i : Nat} {q r : Planned} {o a : Section}
  {n : NegotiatedMedia}

theorem Row.decorated {run : Answering s remote} (hrow : run.Row i q r o a n) :
    run.decorated[i]? = some (r, run.setupAt i r) := by
  refine List.getElem?_zip_eq_some.mpr ⟨hrow.placed, ?_⟩
  rw [getElem?_answerSetups, hrow.placed, Option.map_some, Nat.zero_add]
  rfl

theorem exists_asked (run : Answering s remote) :
    ∃ asked : List (Option (EndpointId × Setup)), run.outcomes.2 = asked.flatMap Option.toList ∧
      ∀ (i : Nat) x, asked[i]? = some (some x) ↔ ∃ q r o a n, remote.sections[i]? = some o ∧
        run.answer.sections[i]? = some a ∧ run.outcomes.1[i]? = some n ∧ run.Row i q r o a n ∧
          a.isRejected = false ∧ run.place.transport.carrier? (midAt remote i) = some x.1 ∧
            run.setupAt i r = some x.2 := by
  obtain ⟨asked, hasked, hget⟩ := outcomes_asked run.written.2 remote 0 run.decorated
    remote.sections run.answer.sections run.length_decorated.symm
    (run.length_sections.trans run.length_decorated.symm)
  refine ⟨asked, hasked, fun i x ↦ ?_⟩
  rw [hget, Nat.zero_add, ← run.transport_written]
  constructor
  · rintro ⟨⟨r', setup⟩, o, a, hr, ho, ha, hx⟩
    obtain ⟨q, r, a', n, ha', hn, hrow⟩ := run.exists_row_of_offered ho
    obtain rfl : a' = a := Option.some_inj.mp (ha'.symm.trans ha)
    obtain ⟨rfl, rfl⟩ := Prod.mk.inj (Option.some_inj.mp (hrow.decorated.symm.trans hr))
    obtain ⟨hrej, hcarrier, hsetup⟩ := outcome_secured.mp hx.symm
    exact ⟨q, r, o, a', n, ho, ha, hn, hrow, hrej, hcarrier, hsetup⟩
  · rintro ⟨q, r, o, a, n, ho, ha, -, hrow, hrej, hcarrier, hsetup⟩
    exact ⟨_, o, a, hrow.decorated, ho, ha,
      (outcome_secured.mpr ⟨hrej, hcarrier, hsetup⟩).symm⟩

/-- **In an answer**, sections ask for the role of the setup that is written in them. -/
theorem asks {s : Session} (run : Answering s.receiving remote) (hs : s.Sound) :
    ∃ asked, Asks s run.secured run.concluded.1 remote
      (fun i ↦ (run.answer.setup? i).bind Setup.role?) asked := by
  obtain ⟨asked, hasked, hget⟩ := run.exists_asked
  refine ⟨asked, ⟨run.written.2.transport, ?_⟩, fun i id ↦ ?_, fun i x hx ↦ ?_⟩
  · obtain ⟨_, _, _, hwritten⟩ := run.written_eq
    have hchannels : run.channels = (asked.flatMap Option.toList).filterMap s.channelFor? := by
      rw [channels, hasked, hwritten]
      rfl
    rw [secured, hchannels]
  · rw [IsSecuredOn, run.negotiated_concluded]
    constructor
    · -- only an accepted section with a secure protocol asks for anything
      rintro ⟨setup, hx⟩
      obtain ⟨q, r, o, a, n, ho, -, hn, hrow, hrej, hcarrier, hsetup⟩ := (hget i _).mp hx
      rcases run.row_cases hrow with ⟨hrejected, -⟩ | ⟨e, -, -, -, -, hmid, hend, hacc⟩
      · exact absurd (hrej.symm.trans hrejected) Bool.false_ne_true
      have hid : e.id = id := by
        have hcarried := run.carrier?_of_endpoint (List.mem_of_getElem? hn) hend
        rw [hmid] at hcarried
        exact Option.some_inj.mp (hcarried.symm.trans hcarrier)
      have hsecure : isSecure r.body.proto = true := by
        by_contra hplain
        rw [setupAt, if_neg hplain] at hsetup
        cases hsetup
      rw [hrow.body.proto_eq] at hsecure
      exact ⟨n, o, hn, ho, hacc, hid ▸ hend, hsecure⟩
    · rintro ⟨n, o, hn, ho, hacc, hend, hsecure⟩
      obtain ⟨q, r, a, n', ha, hn', hrow⟩ := run.exists_row_of_offered ho
      obtain rfl : n' = n := Option.some_inj.mp (hn'.symm.trans hn)
      rcases run.row_cases hrow with ⟨-, rfl⟩ | ⟨e, -, -, hrej, -, hmid, -, -⟩
      · cases hend
      have hcarrier := run.carrier?_of_endpoint (List.mem_of_getElem? hn) hend
      rw [hmid] at hcarrier
      rw [← hrow.body.proto_eq] at hsecure
      exact ⟨_, (hget i (id, _)).mpr ⟨q, r, o, a, n', ho, ha, hn, hrow, hrej, hcarrier,
        if_pos hsecure⟩⟩
  · obtain ⟨q, r, o, a, n, -, ha, -, hrow, hrej, -, hsetup⟩ := (hget i x).mp hx
    refine ⟨(run.secured_settled hs.answerSetup_ne x (hasked ▸ mem_of_asked hx)).2, ?_⟩
    -- the setup of the row is what is written, so it is what is read
    obtain ⟨ssrcs, e, hwritten⟩ := hrow.written
    have hwrites := writes_decorate hrow.body.tidy (run.start.withSources ssrcs e) r.mid
      (run.setupAt i r)
    rw [← hwritten] at hwrites
    rw [Description.setup?_of_attr? ha (hwrites.setup_eq hrej x.2 hsetup), Option.bind_some]

end Answering

/-! ## Applying an answer -/

namespace Session

/-- A secured section of an answer settles on the opposite of its setup, which is active if it says
nothing. -/
theorem securedSetup_of_certificate {s : Session} {answer : Description} {i : Nat} {mid : Mid}
    {a : Section} {c : DtlsCertificate} {setup : Option Setup}
    (hc : s.config.certificate = some c) (h : s.securedSetup answer i mid a = .ok setup) :
    (isSecure a.proto = false ∧ setup = none) ∨
      isSecure a.proto = true ∧ setup = some ((answer.setup? i).getD .active).invert := by
  rw [securedSetup] at h
  cases hsecure : isSecure a.proto with
  | false =>
    rw [hsecure] at h
    cases h
    exact .inl ⟨rfl, rfl⟩
  | true =>
    rw [hsecure] at h
    cases hparams : s.checkRemoteParams answer i mid with
    | error e =>
      rw [hparams] at h
      cases h
    | ok _ =>
      rw [hparams] at h
      change s.settledSetup answer i mid = _ at h
      rw [settledSetup, hc] at h
      refine .inr ⟨rfl, ?_⟩
      generalize (answer.setup? i).getD .active = theirs at h
      cases theirs <;> cases h <;> rfl

end Session

namespace Accepting

open Session

variable {s : Session} {pending : PendingOffer} {answer : Description}

/-- **When an answer is applied**, sections ask for the opposite of what it says in them. -/
theorem asks {s : Session} (run : Accepting s.accepting pending answer) (hs : s.Sound)
    {c : DtlsCertificate} (hc : s.config.certificate = some c) (ports : PortAllocator) :
    ∃ asked, Asks s run.secured (run.concluded ports).1 answer
      (fun i ↦ ((answer.setup? i).getD .active).invert.role?) asked := by
  obtain ⟨asked, hasked, hget⟩ := settleSections_asked run.settle_eq
  obtain ⟨hlength, houtcome, -⟩ := settleSections_spec run.settle_eq
  refine ⟨asked, ⟨s.transport, ?_⟩, fun i id ↦ ?_, fun i x hx ↦ ?_⟩
  · rw [secured, channels, hasked]
    rfl
  · rw [IsSecuredOn, run.negotiated_concluded hs.exclusive ports]
    constructor
    · rintro ⟨setup, hx⟩
      obtain ⟨p, n, hp, hsettle⟩ := (hget i _).mp hx
      have hi : i < run.outcomes.1.length := by
        rw [hlength]
        exact (List.getElem?_eq_some_iff.mp hp).1
      obtain ⟨p', x, hp', hsettle'⟩ := houtcome i _ (List.getElem?_eq_getElem hi)
      obtain rfl : p' = p := Option.some_inj.mp (hp'.symm.trans hp)
      obtain ⟨hn, -⟩ := Prod.mk.inj (Except.ok.inj (hsettle'.symm.trans hsettle))
      rcases settleSection_cases hsettle with ⟨-, hnone⟩ | ⟨id', codec, asks, -, hasks, rfl, hsome⟩
      · cases hnone
      rcases securedSetup_of_certificate hc hasks with ⟨-, rfl⟩ | ⟨hsecure, rfl⟩
      · cases hsome
      · cases hsome
        exact ⟨_, p'.2, (List.getElem?_eq_getElem hi).trans (congrArg some hn),
          (List.getElem?_zip_eq_some.mp hp).2, rfl, rfl, hsecure⟩
    · -- and such a section does, for the endpoint of its outcome
      rintro ⟨n, a, hn, ha, hacc, hend, hsecure⟩
      obtain ⟨p, x, hp, hsettle⟩ := houtcome i n hn
      obtain rfl : p.2 = a := Option.some_inj.mp ((List.getElem?_zip_eq_some.mp hp).2.symm.trans ha)
      rcases settleSection_cases hsettle with ⟨rfl, -⟩ | ⟨id', codec, asks, -, hasks, rfl, rfl⟩
      · cases hend
      rcases securedSetup_of_certificate hc hasks with ⟨hplain, -⟩ | ⟨-, rfl⟩
      · exact absurd (hplain.symm.trans hsecure) Bool.false_ne_true
      · cases hend
        exact ⟨_, (hget i _).mpr ⟨p, _, hp, hsettle⟩⟩
  · obtain ⟨p, n, -, hsettle⟩ := (hget i _).mp hx
    refine ⟨(run.secured_settled x (hasked ▸ mem_of_asked hx)).2, ?_⟩
    rcases settleSection_cases hsettle with ⟨-, hnone⟩ | ⟨id', codec, asks, -, hasks, -, hsome⟩
    · cases hnone
    rcases securedSetup_of_certificate hc hasks with ⟨-, rfl⟩ | ⟨-, rfl⟩
    · cases hsome
    · cases hsome
      rw [Nat.zero_add]

end Accepting

/-! ## The theorem -/

namespace Session

variable {s s' base : Session} {remote answer : Description} {signalled : Nat → Option DtlsRole}
  {c : DtlsCertificate}

/-- Whether the last section on an endpoint decides which role is played there: an accepted secured
section has an endpoint, live if no rejected section has its identifier, and plays what it has
signalled exactly if that endpoint is live and the last section on it has signalled the same. -/
def LastDecides (s s' : Session) (c : DtlsCertificate) (remote : Description)
    (signalled : Nat → Option DtlsRole) : Prop :=
  ∀ (i : Nat) n m, s'.negotiated[i]? = some n → remote.sections[i]? = some m →
    n.rejected = false → isSecure m.proto = true → ∃ id, n.endpoint = some id ∧
      ((∀ r ∈ s'.negotiated, r.rejected = true → r.mid ≠ n.mid) →
        s'.transport.isAlive id = true) ∧
      (PlaysSignalled s s' c signalled id i ↔
        s'.transport.isAlive id = true ∧ LastAgrees s' remote signalled id i)

theorem Concludes.lastDecides (h : Concludes s base s' remote answer) (hs' : s'.Sound)
    {asked : List (Option (EndpointId × Setup))} (hasks : Asks s base s' remote signalled asked)
    (hc : s.config.certificate = some c) : LastDecides s s' c remote signalled := by
  intro i n m hn hm hacc hsecure
  have hmem := List.mem_of_getElem? hn
  have hends := h.endpoint_iff n hmem
  rw [hacc] at hends
  obtain ⟨id, hid⟩ := Option.ne_none_iff_exists'.mp fun hnone ↦ nomatch hends.mp hnone
  refine ⟨id, hid, fun hother ↦ ?_,
    h.playsSignalled_iff hasks hc ⟨n, m, hn, hm, hacc, hid, hsecure⟩⟩
  refine TransportBinding.isAlive_of_carrier? (hs'.carried n hmem id hid ?_)
  rintro ⟨r, hr, hnone, hmid⟩
  exact hother r hr ((h.endpoint_iff r hr).mp hnone) hmid

/-- **The last section on an endpoint decides its role.** Whatever a session with a certificate has
been through: when it answers an offer, an accepted section whose protocol needs a secure channel
has one with the role of the setup that is written in it, if and only if its endpoint is live and
the last such section on it is written with the same; and when it applies an answer, so with the
opposite of what the answer says in the section. -/
theorem last_section_decides_role (hs : s.Reachable) (hc : s.config.certificate = some c)
    (ports : PortAllocator) :
    (∀ remote answer, (s.processOffer ports remote).result = .ok answer →
      LastDecides s (s.processOffer ports remote).session c remote fun i ↦
        (answer.setup? i).bind Setup.role?) ∧
    ∀ answer, (s.processAnswer ports answer).result = .ok () →
      LastDecides s (s.processAnswer ports answer).session c answer fun i ↦
        ((answer.setup? i).getD .active).invert.role? := by
  have hsound := hs.sound
  constructor
  · intro remote answer h
    have hafter := hsound.processOffer ports remote
    obtain ⟨htakes, -, run, hr, hplace⟩ := processOffer_placed hsound h
    rw [hr] at h hafter ⊢
    cases h
    obtain ⟨asked, hasks⟩ := run.asks hsound
    exact (run.concludes hsound (takesOffer_ne_closed htakes) hplace).lastDecides hafter hasks hc
  · intro answer h
    have hafter := hsound.processAnswer ports answer
    rcases processAnswer_cases hsound.hasPem ports answer with
      ⟨e, hr⟩ | ⟨hstate, pending, -, run, hr⟩
    · rw [hr] at h
      cases h
    · rw [hr] at hafter ⊢
      obtain ⟨asked, hasks⟩ := run.asks hsound hc ports
      have hopen : s.state ≠ .closed := hstate ▸ NegotiationState.noConfusion
      exact (run.concludes hsound hopen ports).lastDecides hafter hasks hc

def someCertificate : DtlsCertificate := ⟨"-----BEGIN CERTIFICATE-----", ⟨"sha-256", [1, 171]⟩⟩

/-- A configuration for data channels with a certificate. -/
def secureChannels : SessionConfig where
  certificate := some someCertificate
  handlers := [.sctp {}]

/-- A session for data channels with a certificate. -/
def ofSecureChannels (e : Entropy) : Session := create secureChannels [.sctp {}] e

theorem reachable_ofSecureChannels (e : Entropy) : (ofSecureChannels e).Reachable :=
  .build (show build secureChannels e = .ok (ofSecureChannels e) from rfl)

/-- An offer that bundles two data channels with setups of their own. -/
def bundledSetups (first second : Setup) : Description where
  session := { id := 1, version := 1, attrs := [.of "group" "BUNDLE a b"] }
  sections := [("a", first), ("b", second)].map fun (mid, setup) ↦
    { kind := .application, port := 9, proto := "UDP/DTLS/SCTP", formats := ["webrtc-datachannel"],
      attrs := [.of "mid" mid, .of "ice-ufrag" "u", .of "ice-pwd" "p",
        .of "fingerprint" "sha-256 01:AB", .of "setup" setup.text, .of "sctp-port" "5000"] }

/-- If the peer leaves all setups open, the first section plays what it signals. -/
theorem open_setups_played :
    let s := ofSecureChannels ⟨fun i ↦ i, 0⟩
    let r := s.processOffer {} (bundledSetups .actPass .actPass)
    ∃ answer, r.result = .ok answer ∧ answer.setup? 0 = some .active ∧
      PlaysSignalled s r.session someCertificate (fun i ↦ (answer.setup? i).bind Setup.role?)
        1 0 := by
  intro s r
  have hrun : r.result.toOption.map (fun answer ↦ (answer.setup? 0, answer.setup? 1)) =
      some (some .active, some .active) := by
    decide +kernel
  have hfirst : ∃ n ∈ r.session.negotiated[0]?,
      ∃ m ∈ (bundledSetups .actPass .actPass).sections[0]?,
        n.rejected = false ∧ n.endpoint = some 1 ∧ isSecure m.proto = true := by
    decide +kernel
  have hlength : r.session.negotiated.length = 2 := by decide +kernel
  have halive : r.session.transport.isAlive 1 = true := by decide +kernel
  obtain ⟨n, hn, m, hm, hacc, hend, hsecure⟩ := hfirst
  cases h : r.result with
  | error e =>
    rw [h] at hrun
    cases hrun
  | ok answer =>
    rw [h] at hrun
    obtain ⟨hsetup, hsetup'⟩ := Prod.mk.inj (Option.some.inj hrun)
    have hdecides : LastDecides s r.session someCertificate (bundledSetups .actPass .actPass)
        fun i ↦ (answer.setup? i).bind Setup.role? :=
      (last_section_decides_role (reachable_ofSecureChannels _) rfl {}).1 _ answer h
    obtain ⟨id, hid, -, hplays⟩ := hdecides 0 n m hn hm hacc hsecure
    obtain rfl := Option.some_inj.mp (hid.symm.trans hend)
    refine ⟨answer, rfl, hsetup, hplays.mpr ⟨halive, fun j hj _ ↦ ?_⟩⟩
    obtain ⟨n', -, hn', -⟩ := hj
    have hlt : j < 2 := hlength ▸ (List.getElem?_eq_some_iff.mp hn').1
    obtain rfl | rfl : j = 0 ∨ j = 1 := by omega
    · rfl
    · dsimp only
      rw [hsetup, hsetup']

/-- If the peer does not, a section may be answered with one role and play the other. -/
theorem mixed_setups_mismatch :
    ¬∀ (s : Session) (c : DtlsCertificate) (ports : PortAllocator) (remote answer : Description),
      s.Reachable → s.config.certificate = some c →
        (s.processOffer ports remote).result = .ok answer →
          let s' := (s.processOffer ports remote).session
          ∀ (i : Nat) n m, s'.negotiated[i]? = some n → remote.sections[i]? = some m →
            n.rejected = false → isSecure m.proto = true → ∃ id, n.endpoint = some id ∧
              PlaysSignalled s s' c (fun i ↦ (answer.setup? i).bind Setup.role?) id i := by
  intro hplays
  let s := ofSecureChannels ⟨fun i ↦ i, 0⟩
  have hrun := fun answer ↦ hplays s someCertificate {} (bundledSetups .actPass .active) answer
    (reachable_ofSecureChannels _) rfl
  have hsetup : (s.processOffer {} (bundledSetups .actPass .active)).result.toOption.map
      (fun answer ↦ answer.setup? 0) = some (some .active) := by
    decide +kernel
  have hfirst : ∃ n ∈ (s.processOffer {} (bundledSetups .actPass .active)).session.negotiated[0]?,
      ∃ m ∈ (bundledSetups .actPass .active).sections[0]?, n.rejected = false ∧
        n.endpoint = some 1 ∧ isSecure m.proto = true := by
    decide +kernel
  have hrole : (((s.processOffer {} (bundledSetups .actPass .active)).session.transport.endpoint?
      1).bind (·.encrypt)).map (·.role) = some .server := by
    decide +kernel
  generalize s.processOffer {} (bundledSetups .actPass .active) = r at hrun hsetup hfirst hrole
  obtain ⟨n, hn, m, hm, hacc, hend, hsecure⟩ := hfirst
  cases h : r.result with
  | error e =>
    rw [h] at hsetup
    cases hsetup
  | ok answer =>
    rw [h] at hsetup
    obtain ⟨id, hid, e, role, he, hsignalled, hencrypt, -⟩ := hrun answer h 0 n m hn hm hacc hsecure
    obtain rfl := Option.some_inj.mp (hid.symm.trans hend)
    -- what is written says client, and the endpoint is a server
    have hclient : some role = some .client := by
      rw [← hsignalled]
      dsimp only
      rw [show answer.setup? 0 = some .active from Option.some.inj hsetup]
      rfl
    rw [he, Option.bind_some, hencrypt, Option.map_some, hclient] at hrole
    cases hrole

end Session

end OfferAnswer
