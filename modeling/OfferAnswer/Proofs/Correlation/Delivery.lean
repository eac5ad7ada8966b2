import OfferAnswer.Proofs.Correlation.Bindings
import Mathlib.Data.List.Induction

/-!
# Where a buffer goes

`RtcpPacket.sources` says which of our sources a packet speaks of, when it is known to what the
remote sources are bound, and `spoken` says it for the packets of a buffer, each judged with the
lessons of those before it. A buffer goes to the sources spoken of, each once, or to the passthrough
queue if there are none.

Routing reads and learns at the same time, and a packet is judged there with its own lesson too.
That makes no difference (`targets_learn`): a packet that teaches names its sources itself.
-/

namespace OfferAnswer

/-! ## What packets speak of -/

/-- The sources that a packet speaks of, where remote sources are bound to ours by a map. -/
def RtcpPacket.sources (bound : Ssrc → Option Ssrc) : RtcpPacket → List Ssrc
  | .receiverReport r =>
    match r.blocks with
    | block :: _ => [block]
    | [] => (bound r.sender).toList
  | .intraRequest r => [r.ssrc]
  | .estimate e => e.ssrcs
  | .feedback _ _ sender media => if media = 0 then (bound sender).toList else [media]
  | .senderReport sender | .applicationDefined sender | .extendedReport sender =>
    (bound sender).toList
  | .sourceDescription sender | .goodbye sender => (sender.bind bound).toList
  | .unknown _ => []

namespace CorrelationTable

/-- The source of ours to which the first binding of a remote source in a list binds it. -/
def boundBy (bs : List SsrcBinding) (remote : Ssrc) : Option Ssrc :=
  (firstOf bs remote).map (·.source)

/-- The sources that packets speak of in order, from a list of bindings that grows by what each
packet teaches. -/
def spoken (bs : List SsrcBinding) : List RtcpPacket → List Ssrc
  | [] => []
  | p :: ps => p.sources (boundBy bs) ++ spoken (bs ++ (lesson? p).toList) ps

variable {t u : CorrelationTable}

/-! ## Collecting -/

theorem addTargets_append (seen new more : List Ssrc) :
    addTargets seen (new ++ more) = addTargets (addTargets seen new) more := List.foldl_append

theorem addTargets_nil (ss : List Ssrc) : addTargets [] ss = ss.eraseDups := by
  -- the last source is the one to add: what is left out depends on all before it
  induction ss using List.reverseRecOn with
  | nil => rfl
  | append_singleton ss s ih =>
    rw [addTargets_append, ih, List.eraseDups_append]
    by_cases hs : s ∈ ss
    · simp [addTargets, List.removeAll, hs]
    · simp [addTargets, List.removeAll, hs, List.eraseDups_cons]

theorem nodup_addTargets {seen : List Ssrc} (h : seen.Nodup) (new : List Ssrc) :
    (addTargets seen new).Nodup := by
  induction new generalizing seen with
  | nil => exact h
  | cons s new ih =>
    refine ih ?_
    by_cases hs : s ∈ seen
    · simpa [hs] using h
    · simpa [hs, List.nodup_append] using ⟨h, fun a ha (hab : a = s) ↦ hs (hab ▸ ha)⟩

/-! ## Judging packets -/

theorem via_eq {bs : List SsrcBinding} (hbs : ∀ r, t.binding? r = firstOf bs r) (r : Ssrc) :
    t.via r = (boundBy bs r).toList := by
  rw [via, hbs, boundBy]

/-- What a packet teaches makes no difference to what it speaks of. -/
theorem targets_learn {bs : List SsrcBinding} (hbs : ∀ r, t.binding? r = firstOf bs r)
    (p : RtcpPacket) : (t.learn p).targets p = p.sources (boundBy bs) := by
  cases p with
  | receiverReport r =>
    cases hblocks : r.blocks with
    | nil => simp [learn, lesson?, targets, ReceiverReport.first?, RtcpPacket.sources, hblocks,
        via_eq hbs]
    | cons block blocks => simp [targets, ReceiverReport.first?, RtcpPacket.sources, hblocks]
  | intraRequest r => rfl
  | estimate e => rfl
  | feedback type message sender media =>
    simp only [learn, lesson?, targets, RtcpPacket.sources, via_eq hbs]
  | senderReport sender | applicationDefined sender | extendedReport sender =>
    exact via_eq hbs sender
  | sourceDescription sender | goodbye sender =>
    cases sender with
    | none => rfl
    | some sender => exact via_eq hbs sender
  | unknown type => rfl

theorem resolve_snd (hopen : t.closed = false) {bs : List SsrcBinding}
    (hbs : ∀ r, t.binding? r = firstOf bs r) (seen : List Ssrc) (ps : List RtcpPacket) :
    (t.resolve seen ps).2 = addTargets seen (spoken bs ps) := by
  induction ps generalizing t bs seen with
  | nil => rfl
  | cons p ps ih =>
    have hlearn := learn_eq t p
    have hopen' : (t.learn p).closed = false := by
      rw [hlearn, (sameQueues_bindAll t _).closed, hopen]
    have hbs' (r : Ssrc) : (t.learn p).binding? r = firstOf (bs ++ (lesson? p).toList) r := by
      rw [hlearn, binding?_bindAll hopen, hbs, firstOf_append]
    rw [resolve, ih hopen' hbs', targets_learn hbs, spoken, addTargets_append]

theorem source_mem_sources {p : RtcpPacket} {b : SsrcBinding} (h : lesson? p = some b)
    (bound : Ssrc → Option Ssrc) : b.source ∈ p.sources bound := by
  cases p with
  | receiverReport r =>
    obtain ⟨s, hs, rfl⟩ := Option.map_eq_some_iff.mp h
    obtain ⟨blocks, hblocks⟩ := List.head?_eq_some_iff.mp hs
    simp [RtcpPacket.sources, hblocks]
  | intraRequest r =>
    cases h
    exact List.mem_singleton_self _
  | estimate e =>
    obtain ⟨s, hs, rfl⟩ := Option.map_eq_some_iff.mp h
    exact List.mem_of_head? hs
  | _ => cases h

theorem source_mem_spoken {ps : List RtcpPacket} {b : SsrcBinding} (h : b ∈ ps.filterMap lesson?)
    (bs : List SsrcBinding) : b.source ∈ spoken bs ps := by
  induction ps generalizing bs with
  | nil => cases h
  | cons p ps ih =>
    rw [spoken, List.mem_append]
    obtain ⟨q, hq, hlesson⟩ := List.mem_filterMap.mp h
    rcases List.mem_cons.mp hq with rfl | hq
    · exact .inl (source_mem_sources hlesson _)
    · exact .inr (ih (List.mem_filterMap.mpr ⟨q, hq, hlesson⟩) _)

/-! ## Delivering -/

/-- What delivering a buffer to a list of our sources does to a table. -/
structure Delivered (t u : CorrelationTable) (buffer : Bytes) (ss : List Ssrc) : Prop where
  /-- The buffer waits behind all others in the channels of these sources. Other channels are as
  they were. -/
  channel? : ∀ s, u.channel? s =
    if s ∈ ss then some ⟨s, t.waiting s ++ [buffer]⟩ else t.channel? s
  /-- The channels that were missing are announced in order. -/
  announced : u.announced = t.announced ++ ss.filter fun s ↦ (t.channel? s).isNone

theorem channel?_congr (h : u.channels = t.channels) (s : Ssrc) : u.channel? s = t.channel? s := by
  rw [channel?, h, channel?]

theorem eq_of_channel? {s : Ssrc} {c : RtcpChannel} (h : t.channel? s = some c) :
    c = ⟨s, t.waiting s⟩ := by
  have hsource : c.source = s := by simpa using List.find?_some h
  rw [waiting, h, ← hsource]
  rfl

theorem waiting_of_channel?_none {s : Ssrc} (h : t.channel? s = none) : t.waiting s = [] := by
  rw [waiting, h]
  rfl

theorem channel?_push (t : CorrelationTable) (s : Ssrc) (buffer : Bytes) (x : Ssrc) :
    (t.push s buffer).channel? x =
      if x = s then (t.channel? s).map fun c ↦ ⟨s, c.queue ++ [buffer]⟩ else t.channel? x := by
  have hsource : ((fun c : RtcpChannel ↦ c.source == x) ∘ fun c ↦
      if c.source = s then { c with queue := c.queue ++ [buffer] } else c) = (·.source == x) := by
    funext c
    by_cases hc : c.source = s <;> simp [hc]
  rw [channel?, push, List.find?_map, hsource, ← channel?]
  by_cases hx : x = s
  · subst hx
    rw [if_pos rfl]
    refine Option.map_congr fun c hc ↦ ?_
    rw [eq_of_channel? hc, if_pos rfl]
  · rw [if_neg hx]
    refine (Option.map_congr fun c hc ↦ ?_).trans Option.map_id'
    rw [eq_of_channel? hc, if_neg hx]

theorem channel?_ensureChannel (t : CorrelationTable) (listener : Ssrc → List SsrcBinding)
    (s x : Ssrc) : (t.ensureChannel listener s).channel? x =
      if x = s then some ⟨s, t.waiting s⟩ else t.channel? x := by
  rw [ensureChannel]
  cases hs : t.channel? s with
  | some c =>
    by_cases hx : x = s
    · rw [hx, if_pos rfl, ← eq_of_channel? hs]
      exact hs
    · rw [if_neg hx]
      rfl
  | none =>
    have hnew : (t.channels ++ [RtcpChannel.mk s []]).find? (·.source == x) =
        (t.channel? x).or (if s = x then some ⟨s, []⟩ else none) := by
      rw [List.find?_append, ← channel?]
      by_cases hx : s = x <;> simp [hx]
    rw [Option.isSome_none, if_neg Bool.false_ne_true,
      channel?_congr (sameQueues_bindAll _ _).channels, channel?, hnew]
    by_cases hx : x = s
    · rw [hx, hs, if_pos rfl, if_pos rfl, waiting_of_channel?_none hs, Option.none_or]
    · rw [if_neg hx, if_neg (Ne.symm hx), Option.or_none]

/-- The first buffer for a source makes its channel, and every buffer goes to its end. -/
theorem delivered_one (t : CorrelationTable) (listener : Ssrc → List SsrcBinding) (s : Ssrc)
    (buffer : Bytes) : Delivered t ((t.ensureChannel listener s).push s buffer) buffer [s] where
  channel? x := by
    rw [channel?_push, channel?_ensureChannel, if_pos rfl, channel?_ensureChannel]
    by_cases hx : x = s
    · simp [hx]
    · simp [hx]
  announced := by
    change (t.ensureChannel listener s).announced = _
    rw [ensureChannel]
    cases hs : t.channel? s with
    | some c => simp [hs]
    | none => simp [hs, (sameQueues_bindAll _ _).announced]

/-- Deliveries to different sources do not meet. -/
theorem Delivered.trans {ss ss' : List Ssrc} {v : CorrelationTable} {buffer : Bytes}
    (h : Delivered t u buffer ss) (h' : Delivered u v buffer ss') (hdisjoint : ss.Disjoint ss') :
    Delivered t v buffer (ss ++ ss') where
  channel? s := by
    rw [h'.channel?, waiting, h.channel?]
    by_cases hs : s ∈ ss
    · have hs' : s ∉ ss' := hdisjoint hs
      simp [hs, hs']
    · simp [hs, waiting]
  announced := by
    have hmissing : (ss'.filter fun s ↦ (u.channel? s).isNone) =
        ss'.filter fun s ↦ (t.channel? s).isNone :=
      List.filter_congr fun s hs' ↦ by rw [h.channel?, if_neg fun hs ↦ hdisjoint hs hs']
    rw [h'.announced, hmissing, h.announced, List.filter_append, List.append_assoc]

theorem delivered_nil (hchannels : u.channels = t.channels) (hannounced : u.announced = t.announced)
    (buffer : Bytes) : Delivered t u buffer [] :=
  ⟨channel?_congr hchannels, by rw [hannounced, List.filter_nil, List.append_nil]⟩

theorem delivered_deliver (t : CorrelationTable) (listener : Ssrc → List SsrcBinding)
    (buffer : Bytes) {ss : List Ssrc} (h : ss.Nodup) :
    Delivered t (t.deliver listener buffer ss) buffer ss := by
  induction ss generalizing t with
  | nil => exact delivered_nil rfl rfl buffer
  | cons s ss ih =>
    obtain ⟨hs, hss⟩ := List.nodup_cons.mp h
    rw [deliver, ← List.singleton_append]
    exact (delivered_one t listener s buffer).trans (ih _ hss) (List.singleton_disjoint.mpr hs)

theorem passthrough_deliver (t : CorrelationTable) (listener : Ssrc → List SsrcBinding)
    (buffer : Bytes) (ss : List Ssrc) :
    (t.deliver listener buffer ss).passthrough = t.passthrough := by
  induction ss generalizing t with
  | nil => rfl
  | cons s ss ih =>
    rw [deliver, ih]
    change (t.ensureChannel listener s).passthrough = _
    rw [ensureChannel]
    split
    · rfl
    · exact (sameQueues_bindAll _ _).passthrough

/-! ## Routing -/

theorem route_of_closed (h : t.closed = true) (listener : Ssrc → List SsrcBinding)
    (buffer : Bytes) : t.route listener buffer = (.dropped, t) := by
  rw [route, if_pos h]

theorem route_of_error {buffer : Bytes} {e : RtcpError}
    (h : RtcpPacket.readCompound buffer = .error e) (t : CorrelationTable)
    (listener : Ssrc → List SsrcBinding) : t.route listener buffer = (.dropped, t) := by
  rw [route, h]
  exact ite_self _

/-- Routing teaches the lessons of the packets, and then delivers to the sources spoken of. -/
theorem route_of_ok (hopen : t.closed = false) {buffer : Bytes} {ps : List RtcpPacket}
    (h : RtcpPacket.readCompound buffer = .ok ps) (listener : Ssrc → List SsrcBinding) :
    t.route listener buffer =
      if (spoken t.bindings ps).eraseDups = [] then
        (.passthrough, { t.bindAll (ps.filterMap lesson?) with
          passthrough := t.passthrough ++ [buffer] })
      else (.routed (spoken t.bindings ps).eraseDups,
        (t.bindAll (ps.filterMap lesson?)).deliver listener buffer
          (spoken t.bindings ps).eraseDups) := by
  have hresolve : t.resolve [] ps =
      (t.bindAll (ps.filterMap lesson?), (spoken t.bindings ps).eraseDups) := by
    refine Prod.ext (resolve_fst t [] ps) ?_
    rw [resolve_snd hopen (binding?_eq_firstOf t), addTargets_nil]
  rw [route, hopen, h, if_neg Bool.false_ne_true]
  simp only [hresolve, (sameQueues_bindAll t _).passthrough]

theorem nodup_eraseDups (ss : List Ssrc) : ss.eraseDups.Nodup := by
  rw [← addTargets_nil]
  exact nodup_addTargets List.nodup_nil ss

theorem lessons_of_spoken_eq_nil {bs : List SsrcBinding} {ps : List RtcpPacket}
    (h : (spoken bs ps).eraseDups = []) : ps.filterMap lesson? = [] := by
  refine List.eq_nil_iff_forall_not_mem.mpr fun b hb ↦ ?_
  have hmem := List.mem_eraseDups.mpr (source_mem_spoken hb bs)
  rw [h] at hmem
  exact List.not_mem_nil hmem

/-- The sources that a buffer is delivered to. -/
def reached (t : CorrelationTable) (buffer : Bytes) : List Ssrc :=
  if t.closed then []
  else
    match RtcpPacket.readCompound buffer with
    | .error _ => []
    | .ok ps => (spoken t.bindings ps).eraseDups

theorem nodup_reached (t : CorrelationTable) (buffer : Bytes) : (t.reached buffer).Nodup := by
  rw [reached]
  split
  · exact List.nodup_nil
  · split
    · exact List.nodup_nil
    · exact nodup_eraseDups _

theorem reached_of_ok (hopen : t.closed = false) {buffer : Bytes} {ps : List RtcpPacket}
    (h : RtcpPacket.readCompound buffer = .ok ps) :
    t.reached buffer = (spoken t.bindings ps).eraseDups := by
  rw [reached, hopen, h]
  rfl

/-- Whatever becomes of a buffer, the table takes in some lessons and delivers to the sources that
the buffer reaches, and then only the passthrough queue is left to say. -/
theorem route_snd (t : CorrelationTable) (buffer : Bytes) :
    ∃ lessons : List SsrcBinding, (∀ b ∈ lessons, b.source ∈ t.reached buffer) ∧
      ∀ listener, ∃ queue, (t.route listener buffer).2 =
        { (t.bindAll lessons).deliver listener buffer (t.reached buffer) with
          passthrough := queue } := by
  cases hclosed : t.closed with
  | true =>
    -- a closed table delivers nothing
    have hnone : t.reached buffer = [] := by rw [reached, if_pos hclosed]
    refine ⟨[], by simp, fun listener ↦ ⟨t.passthrough, ?_⟩⟩
    rw [route_of_closed hclosed, hnone]
    rfl
  | false =>
    cases hread : RtcpPacket.readCompound buffer with
    | error e =>
      have hnone : t.reached buffer = [] := by
        rw [reached, hclosed, hread]
        rfl
      refine ⟨[], by simp, fun listener ↦ ⟨t.passthrough, ?_⟩⟩
      rw [route_of_error hread, hnone]
      rfl
    | ok ps =>
      refine ⟨ps.filterMap lesson?, fun b hb ↦ ?_, fun listener ↦ ?_⟩
      · rw [reached_of_ok hclosed hread]
        exact List.mem_eraseDups.mpr (source_mem_spoken hb t.bindings)
      · rw [route_of_ok hclosed hread, ← reached_of_ok hclosed hread]
        by_cases hnone : t.reached buffer = []
        · rw [if_pos hnone, hnone]
          exact ⟨t.passthrough ++ [buffer], rfl⟩
        · rw [if_neg hnone]
          exact ⟨_, rfl⟩

theorem delivered_route (t : CorrelationTable) (listener : Ssrc → List SsrcBinding)
    (buffer : Bytes) : Delivered t (t.route listener buffer).2 buffer (t.reached buffer) := by
  obtain ⟨lessons, _, hroute⟩ := route_snd t buffer
  obtain ⟨queue, hqueue⟩ := hroute listener
  have hkeep := sameQueues_bindAll t lessons
  have hdelivered := (delivered_nil hkeep.channels hkeep.announced buffer).trans
    (delivered_deliver _ listener buffer (nodup_reached t buffer)) (List.disjoint_nil_left _)
  rw [hqueue]
  exact ⟨hdelivered.channel?, hdelivered.announced⟩

/-- **Where a buffer goes.** An open table drops a buffer that is no RTCP, and stays as it is. Any
other buffer goes to the sources that its packets speak of, without repeats and in order: one copy
to the end of the channel of each, which is announced if it was missing. If there are no such
sources, the buffer goes to the end of the passthrough queue and nothing else happens. -/
theorem route_delivers (t : CorrelationTable) (hopen : t.closed = false)
    (listener : Ssrc → List SsrcBinding) (buffer : Bytes) :
    match RtcpPacket.readCompound buffer with
    | .error _ => t.route listener buffer = (.dropped, t)
    | .ok ps =>
      let ss := (spoken t.bindings ps).eraseDups
      if ss = [] then
        t.route listener buffer =
          (.passthrough, { t with passthrough := t.passthrough ++ [buffer] })
      else
        (t.route listener buffer).1 = .routed ss ∧
          Delivered t (t.route listener buffer).2 buffer ss ∧
          (t.route listener buffer).2.passthrough = t.passthrough := by
  cases hread : RtcpPacket.readCompound buffer with
  | error e => exact route_of_error hread t listener
  | ok ps =>
    have hroute := route_of_ok hopen hread listener
    dsimp only
    by_cases hnone : (spoken t.bindings ps).eraseDups = []
    · rw [if_pos hnone, hroute, if_pos hnone, lessons_of_spoken_eq_nil hnone]
      rfl
    · have hdelivered := delivered_route t listener buffer
      rw [reached_of_ok hopen hread] at hdelivered
      rw [if_neg hnone]
      refine ⟨by rw [hroute, if_neg hnone], hdelivered, ?_⟩
      rw [hroute, if_neg hnone, passthrough_deliver, (sameQueues_bindAll t _).passthrough]

/-- A report by 100 on our source 5, followed by a sender report of 100. -/
def reportThenSender : Bytes :=
  [0x81, 201, 0, 7, 0, 0, 0, 100, 0, 0, 0, 5] ++ List.replicate 20 0 ++
    [0x80, 200, 0, 6, 0, 0, 0, 100] ++ List.replicate 20 0

/-- The sender report is routed through the binding that the report before it made. -/
theorem reportThenSender_delivered :
    (({} : CorrelationTable).route noListener reportThenSender).1 = .routed [5] ∧
      Delivered {} (({} : CorrelationTable).route noListener reportThenSender).2
        reportThenSender [5] ∧
      (({} : CorrelationTable).route noListener reportThenSender).2.passthrough = [] := by
  have hread : RtcpPacket.readCompound reportThenSender =
      .ok [.receiverReport ⟨100, [5]⟩, .senderReport 100] := by decide +kernel
  have h := route_delivers {} rfl noListener reportThenSender
  rw [hread] at h
  exact h

end CorrelationTable

end OfferAnswer
