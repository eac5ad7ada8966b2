import OfferAnswer.Proofs.Correlation.History

/-!
# Listeners that bind while a buffer is delivered

A listener is told of a new channel in the middle of a delivery, while other channels are still to
come, and it may bind remote sources in the very table that is delivering. Nothing of the delivery
notices. Bindings are read before it begins, when the sources of the buffer are settled; what comes
after reads and writes queues only, and binding reads and writes bindings only. So the two commute
(`deliver_one`), and everything that a listener binds on the way may as well be bound at the end
(`deliver_bindAll`), in the order of the announcements.

What is bound at the end is behind all that was bound before, the lessons of the buffer included.
`listeners_disturb_nothing` says so for lookups: the listener's bindings are found where there is no
other, and the first of them wins.
-/

namespace OfferAnswer

namespace CorrelationTable

variable {t u : CorrelationTable} {bs : List SsrcBinding} {ss : List Ssrc}

/-! ## Bindings and queues are apart -/

/-- Tables with the same queues are told apart by their bindings. -/
theorem SameQueues.eq_bindAll (h : SameQueues (t.bindAll bs) u)
    (hbindings : u.bindings = (t.bindAll bs).bindings) : u = t.bindAll bs := by
  obtain ⟨hchannels, hpassthrough, hclosed, hannounced⟩ := h
  obtain ⟨bindings, channels, passthrough, closed, announced⟩ := u
  simp only at hbindings hchannels hpassthrough hclosed hannounced
  rw [hbindings, hchannels, hpassthrough, hclosed, hannounced]

theorem push_bindAll (t : CorrelationTable) (bs : List SsrcBinding) (s : Ssrc) (buffer : Bytes) :
    (t.bindAll bs).push s buffer = (t.push s buffer).bindAll bs := by
  have hkeep := sameQueues_bindAll t bs
  have hpushed := sameQueues_bindAll (t.push s buffer) bs
  refine SameQueues.eq_bindAll ⟨?_, ?_, ?_, ?_⟩
    (Binds.bindAll (t := t) (u := t.push s buffer) rfl rfl bs).bindings
  · rw [hpushed.channels, push, hkeep.channels, push]
  · exact hkeep.passthrough.trans hpushed.passthrough.symm
  · exact hkeep.closed.trans hpushed.closed.symm
  · exact hkeep.announced.trans hpushed.announced.symm

theorem ensureChannel_eq (t : CorrelationTable) (listener : Ssrc → List SsrcBinding) (s : Ssrc) :
    t.ensureChannel listener s = (t.ensureChannel noListener s).bindAll
      (if (t.channel? s).isNone then listener s else []) := by
  rw [ensureChannel, ensureChannel]
  cases t.channel? s <;> rfl

theorem ensureChannel_bindAll (t : CorrelationTable) (bs : List SsrcBinding) (s : Ssrc) :
    (t.bindAll bs).ensureChannel noListener s = (t.ensureChannel noListener s).bindAll bs := by
  have hkeep := sameQueues_bindAll t bs
  have hsame := channel?_congr hkeep.channels s
  rw [ensureChannel, ensureChannel, hsame]
  cases t.channel? s with
  | some c => rfl
  | none =>
    -- the announcement itself, without the bindings of the one who hears it
    have hopened := sameQueues_bindAll
      { t with channels := t.channels ++ [⟨s, []⟩], announced := t.announced ++ [s] } bs
    refine SameQueues.eq_bindAll ⟨?_, ?_, ?_, ?_⟩
      (Binds.bindAll (t := t) (by rfl) (by rfl) bs).bindings
    · exact (congrArg (· ++ [RtcpChannel.mk s []]) hkeep.channels).trans hopened.channels.symm
    · exact hkeep.passthrough.trans hopened.passthrough.symm
    · exact hkeep.closed.trans hopened.closed.symm
    · exact (congrArg (· ++ [s]) hkeep.announced).trans hopened.announced.symm

/-! ## One source, and all of them -/

/-- The sources of ours in a list that have no channel yet. -/
def missing (t : CorrelationTable) (ss : List Ssrc) : List Ssrc :=
  ss.filter fun s ↦ (t.channel? s).isNone

theorem missing_congr (h : ∀ s ∈ ss, u.channel? s = t.channel? s) : u.missing ss = t.missing ss :=
  List.filter_congr fun s hs ↦ by rw [h s hs]

/-- What is bound before a buffer is delivered to a source, and what a listener binds meanwhile, may
as well be bound afterwards. -/
theorem deliver_one (t : CorrelationTable) (listener : Ssrc → List SsrcBinding) (buffer : Bytes)
    (bs : List SsrcBinding) (s : Ssrc) :
    ((t.bindAll bs).ensureChannel listener s).push s buffer =
      ((t.ensureChannel noListener s).push s buffer).bindAll
        (bs ++ (t.missing [s]).flatMap listener) := by
  have hsame := channel?_congr (sameQueues_bindAll t bs).channels s
  have hmissing : (if (t.channel? s).isNone then listener s else []) =
      (t.missing [s]).flatMap listener := by
    cases hs : t.channel? s <;> simp [missing, hs]
  rw [ensureChannel_eq, hsame, hmissing, ensureChannel_bindAll, ← bindAll_append, push_bindAll]

theorem deliver_bindAll (t : CorrelationTable) (listener : Ssrc → List SsrcBinding)
    (buffer : Bytes) (bs : List SsrcBinding) {ss : List Ssrc} (h : ss.Nodup) :
    (t.bindAll bs).deliver listener buffer ss =
      (t.deliver noListener buffer ss).bindAll (bs ++ (t.missing ss).flatMap listener) := by
  induction ss generalizing t bs with
  | nil => rw [missing, List.filter_nil, List.flatMap_nil, List.append_nil, deliver, deliver]
  | cons s ss ih =>
    obtain ⟨hs, hss⟩ := List.nodup_cons.mp h
    -- the first source gets its channel, which is missing for none of the others
    have hlater : ((t.ensureChannel noListener s).push s buffer).missing ss = t.missing ss :=
      missing_congr fun x hx ↦ by
        have hne : x ∉ [s] := fun hmem ↦ hs (List.mem_singleton.mp hmem ▸ hx)
        rw [(delivered_one t noListener s buffer).channel?, if_neg hne]
    have hsplit : t.missing (s :: ss) = t.missing [s] ++ t.missing ss := by
      rw [missing, missing, missing, ← List.filter_append, List.singleton_append]
    rw [deliver, deliver_one, ih _ _ hss, hlater, deliver, hsplit, List.flatMap_append,
      List.append_assoc]

/-! ## Routing -/

/-- Routing with a listener is routing without, and then the listener's bindings. -/
theorem route_eq (t : CorrelationTable) (listener : Ssrc → List SsrcBinding) (buffer : Bytes) :
    t.route listener buffer = ((t.route noListener buffer).1,
      (t.route noListener buffer).2.bindAll ((t.missing (t.reached buffer)).flatMap listener)) := by
  cases hclosed : t.closed with
  | true =>
    have hnone : t.reached buffer = [] := by rw [reached, if_pos hclosed]
    rw [route_of_closed hclosed, route_of_closed hclosed, hnone]
    rfl
  | false =>
    cases hread : RtcpPacket.readCompound buffer with
    | error e =>
      have hnone : t.reached buffer = [] := by rw [reached, hclosed, hread]; rfl
      rw [route_of_error hread, route_of_error hread, hnone]
      rfl
    | ok ps =>
      rw [route_of_ok hclosed hread, route_of_ok hclosed hread, ← reached_of_ok hclosed hread]
      by_cases hnone : t.reached buffer = []
      · rw [if_pos hnone, if_pos hnone, hnone]
        rfl
      · have hdeliver := deliver_bindAll (t.bindAll (ps.filterMap lesson?)) listener buffer []
          (nodup_reached t buffer)
        have hmissing : (t.bindAll (ps.filterMap lesson?)).missing (t.reached buffer) =
            t.missing (t.reached buffer) :=
          missing_congr fun s _ ↦ channel?_congr (sameQueues_bindAll t _).channels s
        rw [hmissing, List.nil_append] at hdeliver
        rw [if_neg hnone, if_neg hnone]
        exact congrArg _ hdeliver

/-- **Listeners disturb nothing.** Whatever a listener binds while a buffer is routed, the outcome
is the same as without it, and so are the queues and the announcements. The announced sources are
those that the buffer reaches and that had no channel, each once. The bindings are those without the
listener, and then, as far as a remote source has none, those that the listener asked for, in the
order of the announcements. -/
theorem listeners_disturb_nothing (t : CorrelationTable) (listener : Ssrc → List SsrcBinding)
    (buffer : Bytes) :
    let quiet := t.route noListener buffer
    let heard := t.route listener buffer
    ∃ told : List Ssrc, told.Nodup ∧ quiet.2.announced = t.announced ++ told ∧
      heard.1 = quiet.1 ∧ SameQueues quiet.2 heard.2 ∧
      heard.2.bindings = (quiet.2.bindAll (told.flatMap listener)).bindings ∧
      ∀ r, heard.2.binding? r = (quiet.2.binding? r).or (firstOf (told.flatMap listener) r) := by
  intro quiet heard
  have hroute : heard =
      (quiet.1, quiet.2.bindAll ((t.missing (t.reached buffer)).flatMap listener)) :=
    route_eq t listener buffer
  refine ⟨t.missing (t.reached buffer), (nodup_reached t buffer).filter _,
    (delivered_route t noListener buffer).announced, ?_, ?_, ?_, fun r ↦ ?_⟩
  · rw [hroute]
  · rw [hroute]
    exact sameQueues_bindAll _ _
  · rw [hroute]
  · obtain ⟨_, hquiet⟩ := exists_binds_route t noListener buffer
    rw [hroute]
    cases hclosed : t.closed with
    | false => exact binding?_bindAll (hquiet.closed.trans hclosed) _ r
    | true =>
      have hnone : t.missing (t.reached buffer) = [] := by
        rw [reached, if_pos hclosed]
        rfl
      rw [hnone]
      exact (Option.or_none).symm

end CorrelationTable

end OfferAnswer
