import OfferAnswer.Proofs.Connection.History
import OfferAnswer.Proofs.Session.Phases

/-!
# Late events

Components and handshakes report from elsewhere, and a report may come when its ICE generation is
over or its endpoint is gone. Such an event is late. A run without its late events is the same run:
the calls that stay are made in the same states, return the same and leave the same behind.

A run is a `trace` of moments. Late moments can be dropped from the runs of any system in which
they leave the state as it was (`Moment.indifferent`); what has to be shown of a session is only
that. For an event on an endpoint that is gone this is read off the operation. An event of another
generation on a live endpoint is not counted either, but the session is settled after it, and
settling changes nothing only because an answered session between two operations is never
connected (`Ordered.not_connected`).
-/

namespace OfferAnswer

/-! ## Runs -/

/-- One step of a run. -/
structure Moment (σ ι ω : Type) where
  /-- The state in which the input came. -/
  before : σ
  /-- What came. -/
  input : ι
  /-- What was answered. -/
  answer : ω
  /-- The state that was left. -/
  after : σ

namespace Moment

variable {σ ι ω : Type} {step : σ → ι → ω × σ} {late : σ → ι → Bool}

/-- The run of a system on a list of inputs. -/
def trace (step : σ → ι → ω × σ) : σ → List ι → List (Moment σ ι ω)
  | _, [] => []
  | s, i :: is => ⟨s, i, (step s i).1, (step s i).2⟩ :: trace step (step s i).2 is

/-- The state after a run. -/
def final (step : σ → ι → ω × σ) (s : σ) (is : List ι) : σ :=
  is.foldl (fun s i ↦ (step s i).2) s

/-- The moments of a run that are not late. -/
def timely (step : σ → ι → ω × σ) (late : σ → ι → Bool) (s : σ) (is : List ι) :
    List (Moment σ ι ω) :=
  (trace step s is).filter fun m ↦ !late m.before m.input

/-- Late inputs make no difference to a run. -/
structure Indifferent (step : σ → ι → ω × σ) (late : σ → ι → Bool) (refusal : ω) (s : σ)
    (is : List ι) : Prop where
  /-- The inputs that are not late, on their own, come in the same states, are answered the same and
  leave the same states as in the whole run. -/
  trace_eq : trace step s ((timely step late s is).map (·.input)) = timely step late s is
  /-- The run ends in the same state without the others. -/
  final_eq : final step s ((timely step late s is).map (·.input)) = final step s is
  /-- And those were refused. -/
  refused : ∀ m ∈ trace step s is, late m.before m.input = true → m.answer = refusal

/-- If a late input is refused and changes nothing in any state that an invariant holds of, then
late inputs make no difference to a run. -/
theorem indifferent (Inv : σ → Prop) {refusal : ω} (hstep : ∀ s i, Inv s → Inv (step s i).2)
    (hlate : ∀ s i, Inv s → late s i = true → step s i = (refusal, s)) {s : σ} (hs : Inv s)
    (is : List ι) : Indifferent step late refusal s is := by
  induction is generalizing s with
  | nil => exact ⟨rfl, rfl, fun _ hm ↦ absurd hm List.not_mem_nil⟩
  | cons i is ih =>
    have hrest := ih (hstep s i hs)
    cases hi : late s i with
    | true =>
      -- the late input is left out, and the rest runs from the same state
      have hdrop : timely step late s (i :: is) = timely step late (step s i).2 is :=
        List.filter_cons_of_neg (by simp [hi])
      have hsame := hlate s i hs hi
      have hafter : (step s i).2 = s := congrArg Prod.snd hsame
      rw [hafter] at hdrop hrest
      refine ⟨hdrop ▸ hrest.trace_eq, hdrop ▸ hrest.final_eq.trans ?_, fun m hm hm' ↦ ?_⟩
      · exact congrArg (final step · is) hafter.symm
      · rcases List.mem_cons.mp hm with rfl | hm
        · exact congrArg Prod.fst hsame
        · exact hrest.refused m (hafter ▸ hm) hm'
    | false =>
      -- the input stays, and the rest runs from the state that it leaves
      have hkeep : timely step late s (i :: is) =
          ⟨s, i, (step s i).1, (step s i).2⟩ :: timely step late (step s i).2 is :=
        List.filter_cons_of_pos (by simp [hi])
      refine ⟨?_, ?_, fun m hm hm' ↦ ?_⟩
      · rw [hkeep]
        exact congrArg (List.cons _) hrest.trace_eq
      · rw [hkeep]
        exact hrest.final_eq
      · rcases List.mem_cons.mp hm with rfl | hm
        · exact Bool.noConfusion (hi.symm.trans hm')
        · exact hrest.refused m hm hm'

end Moment

open Moment (Indifferent final timely)

/-! ## The machine -/

namespace ConnectionMachine

variable {m : ConnectionMachine} {e : EndpointId} {g : Nat}

theorem accepts_eq_false (h : g ≠ m.generation) : m.accepts g = false := by
  rw [accepts, beq_false_of_ne h, Bool.and_false]

theorem handleIce_of_stale (h : g ≠ m.generation) (e : EndpointId) (c : IceComponent)
    (s : IceState) : m.handleIce e c s g = (false, m) := by
  rw [handleIce, accepts_eq_false h, Bool.false_and]
  rfl

theorem handleDtls_of_stale (h : g ≠ m.generation) (e : EndpointId) :
    m.handleDtls e g = (false, m) := by
  rw [handleDtls, accepts_eq_false h, Bool.false_and]
  rfl

theorem handleIce_of_gone (h : m.hasEndpoint e = false) (c : IceComponent) (s : IceState)
    (g : Nat) : m.handleIce e c s g = (false, m) := by
  have hno : m.tracks e c = false := by
    rw [Bool.eq_false_iff]
    intro htracks
    rw [hasEndpoint_of_tracks htracks] at h
    exact Bool.noConfusion h
  rw [handleIce, hno, Bool.and_false]
  rfl

theorem handleDtls_of_gone (h : m.hasEndpoint e = false) (g : Nat) :
    m.handleDtls e g = (false, m) := by
  rw [handleDtls, h, Bool.and_false]
  rfl

/-- Whether a call is an event of another generation than the current one, or of an endpoint that
is not followed. -/
def isLate (m : ConnectionMachine) : Call → Bool
  | .ice e _ _ g | .dtls e g => g != m.generation || !m.hasEndpoint e
  | _ => false

/-- A late event does not count, and changes nothing. -/
theorem call_of_isLate {x : Call} (h : m.isLate x = true) : m.call x = (.counted false, m) := by
  cases x with
  | ice e c s g =>
    rw [isLate, Bool.or_eq_true, bne_iff_ne, Bool.not_eq_true'] at h
    rcases h with hstale | hgone
    · rw [call, handleIce_of_stale hstale]
    · rw [call, handleIce_of_gone hgone]
  | dtls e g =>
    rw [isLate, Bool.or_eq_true, bne_iff_ne, Bool.not_eq_true'] at h
    rcases h with hstale | hgone
    · rw [call, handleDtls_of_stale hstale]
    · rw [call, handleDtls_of_gone hgone]
  | _ => exact Bool.noConfusion h

end ConnectionMachine

/-! ## The session -/

namespace Session

variable {s : Session}

/-- What can happen in the run of a session. Of the calls on the correlation table that it hands
out, only the arrival of a buffer is among them; `Session.Event` has all of them. -/
inductive Input where
  | call (c : SessionCall)
  /-- An RTCP buffer arrives. -/
  | rtcp (buffer : Bytes)
  /-- Others change which ports are in use. -/
  | others (ports : PortAllocator)

/-- What is answered to it. -/
inductive Output where
  /-- What the operation returned. -/
  | returned (r : Except NegotiationError SessionResult)
  /-- Where the buffer went. -/
  | routed (o : RtcpOutcome)
  /-- Nothing. -/
  | silent

/-- One step in the run of a session and the ports that it shares. -/
def advance : Session × PortAllocator → Input → Output × Session × PortAllocator
  | (s, ports), .call c =>
    (.returned (s.call ports c).result, (s.call ports c).session, (s.call ports c).ports)
  | (s, ports), .rtcp buffer =>
    (.routed (s.handleRtcp buffer).1, (s.handleRtcp buffer).2, ports)
  | (s, _), .others ports => (.silent, s, ports)

/-- Whether an input is an event of another generation than the current one, or of an endpoint that
is not live, while the session is not closed. -/
def isLate : Session × PortAllocator → Input → Bool
  | (s, _), .call (.ice e _ _ g) | (s, _), .call (.dtls e g) =>
    s.state != .closed && (g != s.connection.generation || !s.transport.isAlive e)
  | _, _ => false

theorem reachable_advance {x : Session × PortAllocator} (h : x.1.Reachable) (i : Input) :
    (advance x i).2.1.Reachable := by
  cases i with
  | call c => exact .call x.2 c h
  | rtcp buffer => exact .rtcp buffer h
  | others ports => exact h

/-- Between two operations there is nothing to settle. -/
theorem Ordered.settle_eq_self (h : s.Ordered) : s.settle = s := by
  rw [Session.settle, if_neg]
  rintro ⟨hanswered, hup⟩
  rw [h.not_connected hanswered] at hup
  exact Bool.noConfusion hup

theorem closedError?_eq_none (h : s.state ≠ .closed) (operation : String) :
    s.closedError? operation = none := if_neg h

/-- An event of a component that is late does not count, and changes nothing. -/
theorem Ordered.handleIce_of_late (h : s.Ordered) (ports : PortAllocator)
    (hopen : s.state ≠ .closed) {e : EndpointId} {g : Nat}
    (hlate : g ≠ s.connection.generation ∨ s.transport.isAlive e = false) (c : IceComponent)
    (st : IceState) :
    Session.handleIce s ports e c st g = s.unchanged ports (.ok false) := by
  rw [Session.handleIce, closedError?_eq_none hopen]
  cases halive : s.transport.isAlive e with
  | false => rfl
  | true =>
    have hstale : g ≠ s.connection.generation := by simpa [halive] using hlate
    simp only [ConnectionMachine.handleIce_of_stale hstale, Bool.not_true, Bool.false_eq_true,
      if_false]
    exact congrArg (fun t ↦ (⟨.ok false, t, ports⟩ : Reply Bool)) h.settle_eq_self

theorem Ordered.handleDtls_of_late (h : s.Ordered) (ports : PortAllocator)
    (hopen : s.state ≠ .closed) {e : EndpointId} {g : Nat}
    (hlate : g ≠ s.connection.generation ∨ s.transport.isAlive e = false) :
    Session.handleDtls s ports e g = s.unchanged ports (.ok false) := by
  rw [Session.handleDtls, closedError?_eq_none hopen]
  cases halive : s.transport.isAlive e with
  | false => rfl
  | true =>
    have hstale : g ≠ s.connection.generation := by simpa [halive] using hlate
    simp only [ConnectionMachine.handleDtls_of_stale hstale, Bool.not_true, Bool.false_eq_true,
      if_false]
    exact congrArg (fun t ↦ (⟨.ok false, t, ports⟩ : Reply Bool)) h.settle_eq_self

theorem advance_of_isLate {x : Session × PortAllocator} {i : Input} (h : x.1.Reachable)
    (hlate : isLate x i = true) : advance x i = (.returned (.ok (.flag false)), x) := by
  obtain ⟨s, ports⟩ := x
  cases i with
  | rtcp buffer => exact Bool.noConfusion hlate
  | others ports => exact Bool.noConfusion hlate
  | call c =>
    cases c with
    | ice e c st g =>
      rw [isLate, Bool.and_eq_true, bne_iff_ne, Bool.or_eq_true, bne_iff_ne,
        Bool.not_eq_true'] at hlate
      rw [advance, Session.call, h.ordered.handleIce_of_late ports hlate.1 hlate.2]
      rfl
    | dtls e g =>
      rw [isLate, Bool.and_eq_true, bne_iff_ne, Bool.or_eq_true, bne_iff_ne,
        Bool.not_eq_true'] at hlate
      rw [advance, Session.call, h.ordered.handleDtls_of_late ports hlate.1 hlate.2]
      rfl
    | _ => exact Bool.noConfusion hlate

/-- **Late events never matter.** Drop from a run of a session all events that came, before it was
closed, with another generation than the current one or for an endpoint that was not live then.
What stays runs as before: every input that stays comes in the same state, is answered the same and
leaves the same state, up to the end. And each event that was dropped had been answered with
`false`. The same holds of a connection machine on its own. -/
theorem late_events_never_matter :
    (∀ s ports is, Reachable s →
      Indifferent advance isLate (.returned (.ok (.flag false))) (s, ports) is) ∧
    ∀ m xs, Indifferent ConnectionMachine.call ConnectionMachine.isLate (.counted false) m xs := by
  constructor
  · intro s ports is hs
    exact Moment.indifferent (fun x ↦ x.1.Reachable) (fun _ i h ↦ reachable_advance h i)
      (fun _ _ h hlate ↦ advance_of_isLate h hlate) hs is
  · intro m xs
    exact Moment.indifferent (fun _ ↦ True) (fun _ _ _ ↦ trivial)
      (fun _ _ _ hlate ↦ ConnectionMachine.call_of_isLate hlate) trivial xs

/-- An exchange with a restart, in which three events come late: one of a generation that is yet to
come, one of the generation before the restart and one for an endpoint that never was. -/
def belated : List Input :=
  [.call (.answer mixedOffer), .call (.ice 1 .rtp .connected 3), .call .restartIce,
    .call (.ice 1 .rtp .failed 0), .call (.dtls 9 1), .call (.ice 1 .rtp .connected 1)]

theorem late_events_never_matter_belated :
    let s := ofChannels ⟨fun i ↦ i, 0⟩
    s.Reachable ∧
      Indifferent advance isLate (.returned (.ok (.flag false))) (s, {}) belated ∧
      (timely advance isLate (s, {}) belated).length = 3 ∧
      (final advance (s, {}) belated).1.state = .established := by
  have hs := reachable_ofChannels ⟨fun i ↦ i, 0⟩
  exact ⟨hs, late_events_never_matter.1 _ _ _ hs, by decide +kernel, by decide +kernel⟩

end Session

end OfferAnswer
