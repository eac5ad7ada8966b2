import OfferAnswer.Proofs.Correlation.Delivery

/-!
# Histories of a table

A table is driven by `Call`s, and `run` is the table after a history of them. Everything here is
said of one call first (`mem_bindings_call`, `isSome_channel?_call`, `count_announced_call`) and
then of histories, by induction on the calls.

A call takes a binding away exactly if it `Unbinds` it, and a channel exactly if it `Removes` it.
Every call that removes the channel of a source unbinds all bindings to it. This is why a binding
that was learned from a buffer, and so came with a channel, never outlives that channel.
-/

namespace OfferAnswer

namespace CorrelationTable

/-- What can be asked of a table. -/
inductive Call where
  | bind (b : SsrcBinding)
  /-- Take the binding of a remote source away. -/
  | unbind (remote : Ssrc)
  /-- Take the bindings and the channel of one of our sources away. -/
  | unbindSource (source : Ssrc)
  | close
  /-- Route a buffer, while a listener binds further sources. -/
  | rtcp (listener : Ssrc → List SsrcBinding) (buffer : Bytes)

/-- Whether a call takes a binding away. -/
def Call.Unbinds (c : Call) (b : SsrcBinding) : Prop :=
  c = .unbind b.remote ∨ c = .unbindSource b.source ∨ c = .close

/-- Whether a call takes the channel of one of our sources away. -/
def Call.Removes (c : Call) (source : Ssrc) : Prop := c = .unbindSource source ∨ c = .close

theorem Call.Removes.unbinds {c : Call} {b : SsrcBinding} (h : c.Removes b.source) :
    c.Unbinds b := .inr h

/-- The table after a call. -/
def call (t : CorrelationTable) : Call → CorrelationTable
  | .bind b => t.bind b
  | .unbind remote => t.unbind remote
  | .unbindSource source => t.unbindSource source
  | .close => t.close
  | .rtcp listener buffer => (t.route listener buffer).2

/-- The table after a history of calls. -/
def run (cs : List Call) : CorrelationTable := cs.foldl call {}

theorem run_append (cs ds : List Call) : run (cs ++ ds) = ds.foldl call (run cs) :=
  List.foldl_append

variable {t : CorrelationTable}

/-! ## What routing binds -/

theorem binds_ensureChannel (t : CorrelationTable) (listener : Ssrc → List SsrcBinding)
    (s : Ssrc) : ∃ bs, bs ⊆ listener s ∧ Binds t (t.ensureChannel listener s) bs := by
  rw [ensureChannel]
  split
  · exact ⟨[], List.nil_subset _, Binds.nil rfl rfl⟩
  · refine ⟨listener s, List.Subset.refl _, ?_⟩
    exact Binds.bindAll (by rfl) (by rfl) (listener s)

theorem binds_deliver (t : CorrelationTable) (listener : Ssrc → List SsrcBinding)
    (buffer : Bytes) (ss : List Ssrc) :
    ∃ bs, bs ⊆ ss.flatMap listener ∧ Binds t (t.deliver listener buffer ss) bs := by
  induction ss generalizing t with
  | nil => exact ⟨[], List.nil_subset _, Binds.nil rfl rfl⟩
  | cons s ss ih =>
    obtain ⟨bs, hbs, hchannel⟩ := binds_ensureChannel t listener s
    have hpush : Binds t ((t.ensureChannel listener s).push s buffer) bs :=
      ⟨hchannel.bindings, hchannel.closed⟩
    obtain ⟨cs, hcs, hrest⟩ := ih ((t.ensureChannel listener s).push s buffer)
    refine ⟨bs ++ cs, ?_, hpush.trans hrest⟩
    rw [List.flatMap_cons]
    exact List.append_subset.mpr ⟨List.subset_append_of_subset_left _ hbs,
      List.subset_append_of_subset_right _ hcs⟩

/-- Routing binds what the packets teach, all of it to sources that the buffer reaches, and then
what the listener asks for. -/
theorem binds_route (t : CorrelationTable) (buffer : Bytes) :
    ∃ lessons : List SsrcBinding, (∀ b ∈ lessons, b.source ∈ t.reached buffer) ∧
      ∀ listener, ∃ bs, bs ⊆ (t.reached buffer).flatMap listener ∧
        Binds t (t.route listener buffer).2 (lessons ++ bs) := by
  obtain ⟨lessons, hlessons, hroute⟩ := route_snd t buffer
  refine ⟨lessons, hlessons, fun listener ↦ ?_⟩
  obtain ⟨queue, hqueue⟩ := hroute listener
  obtain ⟨bs, hbs, hdeliver⟩ :=
    binds_deliver (t.bindAll lessons) listener buffer (t.reached buffer)
  have hboth := (Binds.bindAll (t := t) rfl rfl lessons).trans hdeliver
  refine ⟨bs, hbs, ?_⟩
  rw [hqueue]
  exact ⟨hboth.bindings, hboth.closed⟩

theorem exists_binds_route (t : CorrelationTable) (listener : Ssrc → List SsrcBinding)
    (buffer : Bytes) : ∃ bs, Binds t (t.route listener buffer).2 bs := by
  obtain ⟨lessons, _, hroute⟩ := binds_route t buffer
  obtain ⟨bs, _, hbinds⟩ := hroute listener
  exact ⟨lessons ++ bs, hbinds⟩

/-! ## Bindings in one call -/

theorem mem_bindings_call {b : SsrcBinding} (hb : b ∈ t.bindings) (c : Call) :
    b ∈ (t.call c).bindings ↔ ¬c.Unbinds b := by
  cases c with
  | bind b' => simpa [Call.Unbinds, call] using (bindings_prefix_bind t b').subset hb
  | unbind remote =>
    simp only [Call.Unbinds, call, unbind, List.mem_filter, bne_iff_ne, hb, true_and]
    simpa using ne_comm
  | unbindSource source =>
    simp only [Call.Unbinds, call, unbindSource, List.mem_filter, bne_iff_ne, hb, true_and]
    simpa using ne_comm
  | close => simp [Call.Unbinds, call, close]
  | rtcp listener buffer =>
    obtain ⟨bs, hbinds⟩ := exists_binds_route t listener buffer
    simpa [Call.Unbinds, call] using hbinds.subset hb

theorem Keyed.call (h : t.Keyed) (c : Call) : (t.call c).Keyed := by
  cases c with
  | bind b => exact h.bind b
  | unbind remote => exact h.filter rfl
  | unbindSource source => exact h.filter rfl
  | close => exact List.nodup_nil
  | rtcp listener buffer =>
    obtain ⟨bs, hbinds⟩ := exists_binds_route t listener buffer
    exact hbinds.keyed h

/-! ## Channels in one call -/

theorem channel?_unbindSource (t : CorrelationTable) (source s : Ssrc) :
    (t.unbindSource source).channel? s = if s = source then none else t.channel? s := by
  rw [channel?, unbindSource, List.find?_filter]
  by_cases hs : s = source
  · rw [if_pos hs]
    refine List.find?_eq_none.mpr fun c _ ↦ ?_
    simp [hs]
  · rw [if_neg hs, channel?]
    refine congrArg (t.channels.find? ·) (funext fun c ↦ ?_)
    by_cases hc : c.source = s <;> simp [hc, hs]

theorem isSome_channel?_call {s : Ssrc} (hs : (t.channel? s).isSome) (c : Call) :
    ((t.call c).channel? s).isSome ↔ ¬c.Removes s := by
  cases c with
  | bind b =>
    simpa [Call.Removes, call, channel?_congr (sameQueues_bind t b).channels] using hs
  | unbind remote => exact iff_of_true hs (by simp [Call.Removes])
  | unbindSource source =>
    rw [call, channel?_unbindSource]
    by_cases hsource : s = source
    · simp [Call.Removes, hsource]
    · simpa [Call.Removes, hsource, Ne.symm hsource] using hs
  | close => simp [Call.Removes, call, close, channel?]
  | rtcp listener buffer =>
    rw [call, (delivered_route t listener buffer).channel?]
    by_cases hreached : s ∈ t.reached buffer
    · simp [Call.Removes, hreached]
    · simpa [Call.Removes, hreached] using hs

/-- Whether a call makes the channel of one of our sources. -/
def Creates (t : CorrelationTable) (c : Call) (s : Ssrc) : Prop :=
  t.channel? s = none ∧ (t.call c).channel? s ≠ none

instance (t : CorrelationTable) (c : Call) (s : Ssrc) : Decidable (t.Creates c s) :=
  inferInstanceAs (Decidable (_ ∧ _))

theorem creates_rtcp_iff {listener : Ssrc → List SsrcBinding} {buffer : Bytes} {s : Ssrc} :
    t.Creates (.rtcp listener buffer) s ↔ t.channel? s = none ∧ s ∈ t.reached buffer := by
  refine and_congr_right fun hs ↦ ?_
  rw [call, (delivered_route t listener buffer).channel?, hs]
  by_cases hreached : s ∈ t.reached buffer <;> simp [hreached]

/-- Routing announces once what it makes, for it reaches a source once. -/
theorem count_announced_route (t : CorrelationTable) (listener : Ssrc → List SsrcBinding)
    (buffer : Bytes) (s : Ssrc) :
    (t.route listener buffer).2.announced.count s = t.announced.count s +
      if t.Creates (.rtcp listener buffer) s then 1 else 0 := by
  simp only [creates_rtcp_iff, (delivered_route t listener buffer).announced, List.count_append]
  congr 1
  by_cases hs : t.channel? s = none
  · rw [List.count_filter (by simp [hs]), (nodup_reached t buffer).count]
    simp only [hs, true_and]
  · rw [if_neg fun h ↦ hs h.1]
    exact List.count_eq_zero_of_not_mem (by simp [hs])

/-- A call announces the channels that it makes, each once. -/
theorem count_announced_call (t : CorrelationTable) (c : Call) (s : Ssrc) :
    (t.call c).announced.count s = t.announced.count s + if t.Creates c s then 1 else 0 := by
  cases c with
  | bind b =>
    have hkeep := sameQueues_bind t b
    have hnone : ¬t.Creates (.bind b) s := fun h ↦ h.2 (by
      rw [call, channel?_congr hkeep.channels, h.1])
    rw [if_neg hnone, call, hkeep.announced, Nat.add_zero]
  | unbind remote => exact (if_neg fun h : t.Creates (.unbind remote) s ↦ h.2 h.1).symm ▸ rfl
  | unbindSource source =>
    have hnone : ¬t.Creates (.unbindSource source) s := fun h ↦ h.2 (by
      rw [call, channel?_unbindSource, h.1, ite_self])
    rw [if_neg hnone]
    rfl
  | close => exact (if_neg fun h : t.Creates .close s ↦ h.2 rfl).symm ▸ rfl
  | rtcp listener buffer => exact count_announced_route t listener buffer s

/-! ## Learning from a buffer -/

/-- Whether a table learns a binding from a buffer itself, with nobody listening. -/
def Learns (t : CorrelationTable) (buffer : Bytes) (b : SsrcBinding) : Prop :=
  b ∉ t.bindings ∧ b ∈ (t.route noListener buffer).2.bindings

/-- What a table learns from a buffer is bound to a source that the buffer reaches, and is bound
whoever listens. -/
theorem Learns.reached_and_bound {buffer : Bytes} {b : SsrcBinding} (h : t.Learns buffer b)
    (listener : Ssrc → List SsrcBinding) :
    b.source ∈ t.reached buffer ∧ b ∈ (t.route listener buffer).2.bindings := by
  obtain ⟨lessons, hlessons, hroute⟩ := binds_route t buffer
  obtain ⟨ds, hds, hquiet⟩ := hroute noListener
  obtain ⟨bs, _, hbinds⟩ := hroute listener
  have hquiet : Binds t (t.route noListener buffer).2 lessons := by
    have hnone : (t.reached buffer).flatMap noListener = [] :=
      List.flatMap_eq_nil_iff.mpr fun _ _ ↦ rfl
    rw [hnone] at hds
    rwa [List.eq_nil_of_subset_nil hds, List.append_nil] at hquiet
  refine ⟨(hquiet.mem h.2).elim (fun hmem ↦ absurd hmem h.1) (hlessons b), ?_⟩
  have hlearned := h.2
  rw [hquiet.bindings] at hlearned
  rw [hbinds.bindings, bindAll_append]
  exact (bindings_prefix_bindAll _ bs).subset hlearned

/-! ## Histories -/

theorem keyed_run (cs : List Call) : (run cs).Keyed := by
  induction cs using List.reverseRecOn with
  | nil => exact List.nodup_nil
  | append_singleton cs c ih =>
    rw [run_append]
    exact ih.call c

theorem mem_bindings_foldl {b : SsrcBinding} (hb : b ∈ t.bindings) {ds : List Call}
    (hds : ∀ c ∈ ds, ¬c.Unbinds b) : b ∈ (ds.foldl call t).bindings := by
  induction ds generalizing t with
  | nil => exact hb
  | cons c ds ih =>
    obtain ⟨hc, hds⟩ := List.forall_mem_cons.mp hds
    exact ih ((mem_bindings_call hb c).mpr hc) hds

theorem isSome_channel?_foldl {s : Ssrc} (hs : (t.channel? s).isSome) {ds : List Call}
    (hds : ∀ c ∈ ds, ¬c.Removes s) : ((ds.foldl call t).channel? s).isSome := by
  induction ds generalizing t with
  | nil => exact hs
  | cons c ds ih =>
    obtain ⟨hc, hds⟩ := List.forall_mem_cons.mp hds
    exact ih ((isSome_channel?_call hs c).mpr hc) hds

/-- How many calls of a history make the channel of one of our sources. -/
def creations (s : Ssrc) : CorrelationTable → List Call → Nat
  | _, [] => 0
  | t, c :: cs => (if t.Creates c s then 1 else 0) + creations s (t.call c) cs

theorem count_announced_foldl (t : CorrelationTable) (cs : List Call) (s : Ssrc) :
    (cs.foldl call t).announced.count s = t.announced.count s + creations s t cs := by
  induction cs generalizing t with
  | nil => rfl
  | cons c cs ih => rw [List.foldl_cons, ih, count_announced_call, creations, Nat.add_assoc]

/-- A binding with a channel has one for as long as it is there: what takes the channel away takes
the binding away too. -/
theorem isSome_channel?_of_bound {b : SsrcBinding} (hb : b ∈ t.bindings)
    (hs : (t.channel? b.source).isSome) {ds : List Call}
    (hds : ∀ es, es <+: ds → b ∈ (es.foldl call t).bindings) :
    ((ds.foldl call t).channel? b.source).isSome := by
  induction ds generalizing t with
  | nil => exact hs
  | cons c ds ih =>
    have hbound : b ∈ (t.call c).bindings := hds [c] (List.prefix_append [c] ds)
    have hkeeps : ¬c.Removes b.source := fun h ↦ (mem_bindings_call hb c).mp hbound h.unbinds
    exact ih hbound ((isSome_channel?_call hs c).mpr hkeeps) fun es hes ↦
      hds (c :: es) (List.cons_prefix_cons.mpr ⟨rfl, hes⟩)

/-- **First seen wins.** In every history of a table:
each binding is found under its own remote source;
a binding that is found stays until a call takes it away;
a channel stays until a call takes it away;
the channel of a source is announced as often as it was made;
and what the table learns from a buffer is bound, and has a channel for as long as it is. -/
theorem first_seen_wins :
    (∀ cs r b, (run cs).binding? r = some b ↔ b ∈ (run cs).bindings ∧ b.remote = r) ∧
    (∀ cs ds r b, (run cs).binding? r = some b → (∀ c ∈ ds, ¬c.Unbinds b) →
      (run (cs ++ ds)).binding? r = some b) ∧
    (∀ cs ds s, ((run cs).channel? s).isSome → (∀ c ∈ ds, ¬c.Removes s) →
      ((run (cs ++ ds)).channel? s).isSome) ∧
    (∀ cs s, (run cs).announced.count s = creations s {} cs) ∧
    (∀ cs listener buffer b, (run cs).Learns buffer b →
      (run (cs ++ [.rtcp listener buffer])).binding? b.remote = some b ∧
      ∀ ds, (∀ es, es <+: ds →
          (run (cs ++ .rtcp listener buffer :: es)).binding? b.remote = some b) →
        ((run (cs ++ .rtcp listener buffer :: ds)).channel? b.source).isSome) := by
  refine ⟨fun cs r b ↦ (keyed_run cs).binding?_eq_some_iff, fun cs ds r b hb hds ↦ ?_,
    fun cs ds s hs hds ↦ ?_, fun cs s ↦ ?_, fun cs listener buffer b hlearns ↦ ?_⟩
  · obtain ⟨hmem, hremote⟩ := (keyed_run cs).binding?_eq_some_iff.mp hb
    refine (keyed_run (cs ++ ds)).binding?_eq_some_iff.mpr ⟨?_, hremote⟩
    rw [run_append]
    exact mem_bindings_foldl hmem hds
  · rw [run_append]
    exact isSome_channel?_foldl hs hds
  · exact (count_announced_foldl {} cs s).trans (Nat.zero_add _)
  · -- what a buffer teaches is bound before the buffer is delivered, which makes the channel
    obtain ⟨hreached, hmem⟩ := hlearns.reached_and_bound listener
    have hchannel : (((run cs).call (.rtcp listener buffer)).channel? b.source).isSome := by
      rw [call, (delivered_route _ listener buffer).channel?, if_pos hreached]
      rfl
    constructor
    · refine (keyed_run _).binding?_eq_some_iff.mpr ⟨?_, rfl⟩
      rw [run_append]
      exact hmem
    · intro ds hbound
      rw [run_append]
      refine isSome_channel?_of_bound hmem hchannel fun es hes ↦ ?_
      have hfound := (keyed_run _).binding?_eq_some_iff.mp (hbound es hes)
      rw [run_append] at hfound
      exact hfound.1

/-- What a report taught wins over what the remote description says later, and keeps its channel. -/
theorem reportThenSender_wins :
    (run []).Learns reportThenSender ⟨100, 5, .receiverReport⟩ ∧
      (run [.rtcp noListener reportThenSender, .bind ⟨100, 7, .description⟩]).binding? 100 =
        some ⟨100, 5, .receiverReport⟩ ∧
      ((run [.rtcp noListener reportThenSender, .bind ⟨100, 7, .description⟩]).channel?
        5).isSome := by
  have hlearns : (run []).Learns reportThenSender ⟨100, 5, .receiverReport⟩ :=
    ⟨List.not_mem_nil, by decide +kernel⟩
  obtain ⟨_, hstays, _, _, hkeeps⟩ := first_seen_wins
  obtain ⟨hbound, hchannel⟩ := hkeeps [] noListener reportThenSender _ hlearns
  have hbound (es : List Call) (hes : es <+: [.bind ⟨100, 7, .description⟩]) :
      (run (.rtcp noListener reportThenSender :: es)).binding? 100 =
        some ⟨100, 5, .receiverReport⟩ := by
    refine hstays [.rtcp noListener reportThenSender] es 100 _ hbound fun c hc ↦ ?_
    rw [List.mem_singleton.mp (hes.subset hc)]
    simp [Call.Unbinds]
  exact ⟨hlearns, hbound _ List.prefix_rfl, hchannel _ hbound⟩

end CorrelationTable

end OfferAnswer
