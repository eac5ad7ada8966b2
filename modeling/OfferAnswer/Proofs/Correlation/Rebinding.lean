import OfferAnswer.Proofs.Correlation.Bindings
import OfferAnswer.Session.Commit

/-!
# What declarations do to a binding

After an exchange the sections that we listen to are taken one by one, each with our source in it
and the remote sources that it declares. A section binds what it declares, unless that is bound, and
unbinds what it had declared for its own source before. Seen from one remote source, this is a fold
over the sections: `hear` is its step, and `binding?_correlate` says so.

## Order

The order of the sections matters. A binding to the source of a later section is still there when an
earlier section declares the remote source, so the earlier section is refused; then the later one
takes the binding away. The remote source ends up unbound although a section declares it. `Stranded`
is that condition, and if our sources are pairwise different there is no other way for it to end up
so (`foldl_hear_of_not_stranded`, `foldl_hear_of_stranded`).
-/

namespace OfferAnswer

/-- A section that we listen to. -/
structure Heard where
  /-- Our source in it. -/
  source : Ssrc
  /-- The remote sources that it declares. -/
  declared : List Ssrc
deriving DecidableEq

namespace CorrelationTable

variable {t u : CorrelationTable} {r : Ssrc} {b : SsrcBinding} {hs : List Heard}

/-! ## Taking bindings away -/

theorem Keyed.binding?_filter (h : t.Keyed) {p : SsrcBinding → Bool}
    (hu : u.bindings = t.bindings.filter p) (r : Ssrc) :
    u.binding? r = (t.binding? r).filter p := by
  ext b
  rw [(h.filter hu).binding?_eq_some_iff, Option.filter_eq_some_iff, h.binding?_eq_some_iff, hu,
    List.mem_filter]
  exact and_right_comm

theorem Keyed.binding?_unbindSource (h : t.Keyed) (source r : Ssrc) :
    (t.unbindSource source).binding? r = (t.binding? r).filter (·.source != source) :=
  h.binding?_filter rfl r

theorem Keyed.unbindAll (h : t.Keyed) (rs : List Ssrc) : (rs.foldl unbind t).Keyed := by
  induction rs generalizing t with
  | nil => exact h
  | cons r rs ih => exact ih (h.filter rfl)

theorem closed_unbindAll (t : CorrelationTable) (rs : List Ssrc) :
    (rs.foldl unbind t).closed = t.closed := by
  induction rs generalizing t with
  | nil => rfl
  | cons r rs ih => exact ih (t.unbind r)

theorem Keyed.binding?_unbindAll (h : t.Keyed) (rs : List Ssrc) (r : Ssrc) :
    (rs.foldl unbind t).binding? r = if r ∈ rs then none else t.binding? r := by
  induction rs generalizing t with
  | nil => rfl
  | cons r' rs ih =>
    have hone : (t.unbind r').binding? r = (t.binding? r).filter (·.remote != r') :=
      h.binding?_filter rfl r
    rw [List.foldl_cons, ih (h.filter rfl), hone]
    by_cases hmem : r ∈ rs
    · rw [if_pos hmem, if_pos (List.mem_cons_of_mem r' hmem)]
    · rw [if_neg hmem]
      by_cases hr : r = r'
      · subst hr
        rw [if_pos List.mem_cons_self, Option.filter_eq_none_iff]
        intro b hb
        rw [(h.binding?_eq_some_iff.mp hb).2, bne_self_eq_false]
        exact Bool.false_ne_true
      · rw [if_neg fun hc ↦ (List.mem_cons.mp hc).elim hr hmem]
        cases hb : t.binding? r with
        | none => rfl
        | some b =>
          have hremote := (h.binding?_eq_some_iff.mp hb).2
          exact Option.filter_some_pos (by rwa [hremote, bne_iff_ne])

/-! ## One section -/

/-- What a section does to the binding of a remote source. -/
def hear (r : Ssrc) (b : Option SsrcBinding) (x : Heard) : Option SsrcBinding :=
  if r ∈ x.declared then b.or (some ⟨r, x.source, .description⟩)
  else b.filter (· != ⟨r, x.source, .description⟩)

theorem Keyed.mem_staleSsrcs (h : t.Keyed) {source : Ssrc} {declared : List Ssrc} :
    r ∈ Session.staleSsrcs t source declared ↔
      r ∉ declared ∧ t.binding? r = some ⟨r, source, .description⟩ := by
  rw [Session.staleSsrcs, List.mem_map, h.binding?_eq_some_iff]
  constructor
  · rintro ⟨b, hb, rfl⟩
    rw [List.mem_filter, bindingsTo, List.mem_filter, Bool.and_eq_true, beq_iff_eq, beq_iff_eq,
      Bool.not_eq_true', List.contains_eq_mem, decide_eq_false_iff_not] at hb
    obtain ⟨⟨hmem, rfl⟩, hvia, homits⟩ := hb
    exact ⟨homits, hvia ▸ hmem, rfl⟩
  · rintro ⟨homits, hmem, -⟩
    refine ⟨_, List.mem_filter.mpr ⟨List.mem_filter.mpr ⟨hmem, beq_self_eq_true _⟩, ?_⟩, rfl⟩
    simpa using homits

/-- **What a section does** to the bindings is what it does to each of them. -/
theorem Keyed.binding?_correlate (h : t.Keyed) (hopen : t.closed = false) (x : Heard) (r : Ssrc) :
    (Session.correlate t x.source (Session.staleSsrcs t x.source x.declared)
      x.declared).binding? r = hear r (t.binding? r) x := by
  have hnew : firstOf (x.declared.map fun r ↦ ⟨r, x.source, .description⟩) r =
      if r ∈ x.declared then some ⟨r, x.source, .description⟩ else none := by
    induction x.declared with
    | nil => rfl
    | cons r' rs ih =>
      rw [List.map_cons, ← List.singleton_append, firstOf_append, ih]
      by_cases hr : r' = r
      · simp [firstOf, hr]
      · simp [firstOf, hr, Ne.symm hr]
  rw [Session.correlate, binding?_bindAll ((closed_unbindAll t _).trans hopen),
    h.binding?_unbindAll, hnew, hear]
  by_cases hdeclared : r ∈ x.declared
  · rw [if_neg fun hstale ↦ (h.mem_staleSsrcs.mp hstale).1 hdeclared, if_pos hdeclared,
      if_pos hdeclared]
  · rw [if_neg hdeclared, if_neg hdeclared, Option.or_none]
    by_cases hstale : t.binding? r = some ⟨r, x.source, .description⟩
    · rw [if_pos (h.mem_staleSsrcs.mpr ⟨hdeclared, hstale⟩), hstale, Option.filter_some,
        bne_self_eq_false, if_neg Bool.false_ne_true]
    · rw [if_neg fun hc ↦ hstale (h.mem_staleSsrcs.mp hc).2]
      cases hb : t.binding? r with
      | none => rfl
      | some b =>
        have hother : b ≠ ⟨r, x.source, .description⟩ := fun hc ↦ hstale (hc ▸ hb)
        rw [Option.filter_some, if_pos (bne_iff_ne.mpr hother)]

theorem Keyed.correlate (h : t.Keyed) (source : Ssrc) (stale declared : List Ssrc) :
    (Session.correlate t source stale declared).Keyed := (h.unbindAll stale).bindAll _

theorem closed_correlate (t : CorrelationTable) (source : Ssrc) (stale declared : List Ssrc) :
    (Session.correlate t source stale declared).closed = t.closed :=
  (sameQueues_bindAll _ _).closed.trans (closed_unbindAll t stale)

/-! ## All sections -/

/-- A section keeps a binding unless it omits the remote source and the binding is its own. -/
theorem hear_of_kept {x : Heard} (h : r ∉ x.declared → b ≠ ⟨r, x.source, .description⟩) :
    hear r (some b) x = some b := by
  rw [hear]
  by_cases hdeclared : r ∈ x.declared
  · rw [if_pos hdeclared, Option.some_or]
  · rw [if_neg hdeclared]
    exact Option.filter_some_pos (bne_iff_ne.mpr (h hdeclared))

/-- The section of a binding takes it away if it does not declare the remote source. -/
theorem hear_of_dropped {x : Heard} (hown : b = ⟨b.remote, x.source, .description⟩)
    (h : b.remote ∉ x.declared) : hear b.remote (some b) x = none := by
  rw [hear, if_neg h, ← hown]
  exact Option.filter_some_neg (bne_self_eq_false _)

theorem foldl_hear_of_kept
    (h : ∀ x ∈ hs, r ∉ x.declared → b ≠ ⟨r, x.source, .description⟩) :
    hs.foldl (hear r) (some b) = some b := by
  induction hs with
  | nil => rfl
  | cons x hs ih =>
    rw [List.foldl_cons, hear_of_kept (h x List.mem_cons_self)]
    exact ih fun y hy ↦ h y (List.mem_cons_of_mem x hy)

theorem foldl_hear_of_silent (h : ∀ x ∈ hs, r ∉ x.declared) : hs.foldl (hear r) none = none := by
  induction hs with
  | nil => rfl
  | cons x hs ih =>
    rw [List.foldl_cons, hear, if_neg (h x List.mem_cons_self)]
    exact ih fun y hy ↦ h y (List.mem_cons_of_mem x hy)

theorem foldl_hear_of_unbound (hdistinct : (hs.map (·.source)).Nodup)
    (hdeclared : ∃ x ∈ hs, r ∈ x.declared) :
    ∃ x ∈ hs, r ∈ x.declared ∧ hs.foldl (hear r) none = some ⟨r, x.source, .description⟩ := by
  induction hs with
  | nil => exact absurd hdeclared (by simp)
  | cons x hs ih =>
    rw [List.map_cons, List.nodup_cons] at hdistinct
    rw [List.foldl_cons]
    by_cases hx : r ∈ x.declared
    · -- the first that declares it gets it, and no other has that source
      refine ⟨x, List.mem_cons_self, hx, ?_⟩
      rw [hear, if_pos hx, Option.none_or]
      refine foldl_hear_of_kept fun y hy _ hc ↦ hdistinct.1 ?_
      rw [show x.source = y.source from congrArg SsrcBinding.source hc]
      exact List.mem_map_of_mem hy
    · obtain ⟨y, hy, hry⟩ := hdeclared
      have hy' : y ∈ hs := (List.mem_cons.mp hy).resolve_left fun hc ↦ hx (hc ▸ hry)
      obtain ⟨z, hz, hrz, hfold⟩ := ih hdistinct.2 ⟨y, hy', hry⟩
      refine ⟨z, List.mem_cons_of_mem x hz, hrz, ?_⟩
      rw [hear, if_neg hx]
      exact hfold

/-- Whether a binding from a description is in the way: from the section of its source on, no
section declares the remote source. -/
def Stranded (b : SsrcBinding) (hs : List Heard) : Prop :=
  b.via = .description ∧ ∀ before x after, hs = before ++ x :: after → x.source = b.source →
    ∀ y ∈ x :: after, b.remote ∉ y.declared

/-- A stranded binding stays, or is taken away and nothing takes its place. -/
theorem foldl_hear_of_stranded (h : Stranded b hs) :
    hs.foldl (hear b.remote) (some b) = none ∨ hs.foldl (hear b.remote) (some b) = some b := by
  induction hs with
  | nil => exact .inr rfl
  | cons x hs ih =>
    rw [List.foldl_cons]
    by_cases hsource : x.source = b.source
    · have hsilent := h.2 [] x hs rfl hsource
      have hown : b = ⟨b.remote, x.source, .description⟩ := by
        rw [hsource, ← h.1]
      rw [hear_of_dropped hown (hsilent x List.mem_cons_self)]
      exact .inl (foldl_hear_of_silent fun y hy ↦ hsilent y (List.mem_cons_of_mem x hy))
    · rw [hear_of_kept fun _ hc ↦ hsource (congrArg SsrcBinding.source hc).symm]
      exact ih ⟨h.1, fun before y after hsplit ↦
        h.2 (x :: before) y after (congrArg (x :: ·) hsplit)⟩

/-- A binding from a description that is not stranded ends up at a section that declares its remote
source. -/
theorem foldl_hear_of_not_stranded (hdistinct : (hs.map (·.source)).Nodup)
    (hvia : b.via = .description) (h : ¬Stranded b hs) :
    ∃ x ∈ hs, b.remote ∈ x.declared ∧
      hs.foldl (hear b.remote) (some b) = some ⟨b.remote, x.source, .description⟩ := by
  obtain ⟨before, x, after, rfl, hsource, y, hy, hdeclared⟩ : ∃ before x after,
      hs = before ++ x :: after ∧ x.source = b.source ∧
        ∃ y ∈ x :: after, b.remote ∈ y.declared := by
    by_contra hnone
    refine h ⟨hvia, fun before x after hsplit hsource y hy hdeclared ↦ hnone ?_⟩
    exact ⟨before, x, after, hsplit, hsource, y, hy, hdeclared⟩
  have hown : b = ⟨b.remote, x.source, .description⟩ := by
    rw [hsource, ← hvia]
  rw [List.map_append, List.map_cons] at hdistinct
  have hdistinct' := List.nodup_middle.mp hdistinct
  rw [List.nodup_cons, List.mem_append, not_or] at hdistinct'
  obtain ⟨⟨hbefore, hafter⟩, hrest⟩ := hdistinct'
  -- no other section has its source, so it reaches its own
  have hother {z : Heard} (hz : b = ⟨b.remote, z.source, .description⟩) : x.source = z.source :=
    hsource.trans (congrArg SsrcBinding.source hz)
  have hreach : before.foldl (hear b.remote) (some b) = some b :=
    foldl_hear_of_kept fun z hz _ hc ↦ hbefore (hother hc ▸ List.mem_map_of_mem hz)
  rw [List.foldl_append, hreach, List.foldl_cons]
  by_cases hx : b.remote ∈ x.declared
  · refine ⟨x, List.mem_append_right _ List.mem_cons_self, hx, ?_⟩
    rw [hear_of_kept fun hc ↦ absurd hx hc, ← hown]
    exact foldl_hear_of_kept fun z hz _ hc ↦ hafter (hother hc ▸ List.mem_map_of_mem hz)
  · have hy' : y ∈ after := (List.mem_cons.mp hy).resolve_left fun hc ↦ hx (hc ▸ hdeclared)
    obtain ⟨z, hz, hrz, hfold⟩ :=
      foldl_hear_of_unbound (List.nodup_append.mp hrest).2.1 ⟨y, hy', hdeclared⟩
    rw [hear_of_dropped hown hx]
    exact ⟨z, List.mem_append_right _ (List.mem_cons_of_mem x hz), hrz, hfold⟩

end CorrelationTable

end OfferAnswer
