import OfferAnswer.Proofs.Session.Invariant
import OfferAnswer.Proofs.Session.Written

/-!
# Answers stand in place

A section of an answer is found by its index, so an answer that drops, moves or half writes one
would be taken for an answer to another section. There are five ways through an answer: a section is
offered rejected, no handler takes it, its handler refuses it, no port is left for it, or it is
accepted. They meet again in one statement, `Section.AnswersInPlace`.

The port that a handler writes is a placeholder. It never shows: an accepted section has an
endpoint, and the port of that one is written over it.
-/

namespace OfferAnswer

/-- What the section at an index of an answer owes to the section that was offered there. -/
structure Section.AnswersInPlace (a : Section) (i : Nat) (o : Section) : Prop where
  /-- The kind is that of the offer. -/
  kind_eq : a.kind = o.kind
  /-- The protocol is that of the offer. -/
  proto_eq : a.proto = o.proto
  /-- It declares the identifier of the offered section, which may be that of its index. -/
  mid_eq : a.mid? = some (o.mid?.getD (.ofIndex i))
  /-- What is offered rejected is rejected. -/
  rejected : o.isRejected = true → a.isRejected = true
  /-- A rejected section has neither port nor formats. -/
  of_rejected : a.isRejected = true → a.port = 0 ∧ a.formats = []
  /-- An accepted one has a port, and formats that were offered. -/
  of_accepted : a.isRejected = false → a.port ≠ 0 ∧ a.formats ≠ [] ∧ ∀ f ∈ a.formats, f ∈ o.formats

namespace Mid

/-- The identifier of a section is its own name in the written form, whether it was declared or is
that of an index. -/
theorem ofText_text_offered (i : Nat) (o : Section) :
    ofText (o.mid?.getD (ofIndex i)).text = o.mid?.getD (ofIndex i) := by
  rw [Section.mid?]
  cases o.attr? "mid" with
  | none => exact (named_ofIndex i).ofText_text
  | some name => exact ofText_text_ofText name

end Mid

namespace Session

theorem midAt_eq {remote : Description} {i : Nat} {o : Section}
    (ho : remote.sections[i]? = some o) :
    midAt remote i = o.mid?.getD (.ofIndex i) := by
  rw [midAt, Description.midOf?, ho]
  rfl

end Session

namespace Answering

open Session

variable {s : Session} {remote : Description} {run : Answering s remote} {i : Nat}
  {q r : Planned} {o a : Section} {n : NegotiatedMedia}

theorem Row.body_of_rejected (hrow : run.Row i q r o a n) (hrej : r.body.isRejected = true) :
    r.body = .rejected o := by
  cases hrow.fate with
  | refused _ => rfl
  | rejected _ =>
    -- what handlers answer is not rejected
    rcases planAnswer_cases hrow.planned with ⟨_, rfl⟩ | ⟨_, h, answer, -, -, -, ha, rfl⟩
    · rfl
    · have hanswer := (MediaHandler.answers ha).2.2
      rw [hanswer] at hrej
      cases hrej
  | @carried e _ he _ =>
    have hport := run.ready.exclusive.rtpPort_ne_zero e he
    simp [Section.isRejected, hport] at hrej

/-- **Every row ends in place.** -/
theorem Row.inPlace (hrow : run.Row i q r o a n) (ho : remote.sections[i]? = some o) :
    a.AnswersInPlace i o := by
  obtain ⟨hplan, hwrites⟩ := hrow.answers
  refine ⟨hplan.kind_eq, hplan.proto_eq, ?_, ?_, ?_, ?_⟩
  · rw [hwrites.mid_eq, midAt_eq ho, Mid.ofText_text_offered]
  · intro horej
    cases harej : a.isRejected with
    | true => rfl
    | false =>
      have hoffered := (hplan.answers harej).1
      rw [horej] at hoffered
      cases hoffered
  · intro harej
    refine ⟨by simpa [Section.isRejected] using harej, ?_⟩
    obtain ⟨ssrcs, e, hwritten⟩ := hrow.written
    rw [hwritten, Section.isRejected, port_decorate] at harej
    have hbody := hrow.body_of_rejected harej
    rw [hwritten, formats_decorate, hbody]
    rfl
  · intro harej
    obtain ⟨-, h, -, hanswers⟩ := hplan.answers harej
    exact ⟨by simpa [Section.isRejected] using harej, hanswers.formats_ne,
      fun f hf ↦ hanswers.formats_subset hf⟩

end Answering

namespace Session

variable {s : Session}

/-- **An answer answers section by section.** Whatever a session that was built has been through,
and whatever it is offered: if it answers at all, its answer has a section for each section of the
offer, at the same index and of the same kind, protocol and identifier. A section is rejected
without port and formats, or accepted with a port and with formats that were offered, and a section
that was offered rejected is not accepted. -/
theorem answer_stands_in_place (hs : s.Reachable) (ports : PortAllocator)
    {remote answer : Description} (h : (s.processOffer ports remote).result = .ok answer) :
    answer.sections.length = remote.sections.length ∧
      ∀ (i : Nat) o a, remote.sections[i]? = some o → answer.sections[i]? = some a →
        a.AnswersInPlace i o := by
  have hsound := hs.sound
  rcases processOffer_cases hsound.exclusive hsound.hasPem hsound.answerSetup_ne ports remote with
    ⟨e, hr⟩ | ⟨-, -, run, hr⟩
  · rw [hr] at h
    cases h
  · rw [hr] at h
    cases h
    refine ⟨run.length_sections, ?_⟩
    intro i o a ho ha
    obtain ⟨q, r, a', n, ha', -, hrow⟩ := run.exists_row_of_offered ho
    obtain rfl : a' = a := Option.some.inj (ha'.symm.trans ha)
    exact hrow.inPlace ho

/-- An offer of a data channel without identifier, of audio that a session for data channels does
not take, and of a data channel that is switched off. -/
def mixedOffer : Description where
  session := { id := 1, version := 1 }
  sections :=
    [{ kind := .application, port := 9, proto := "UDP/DTLS/SCTP", formats := ["webrtc-datachannel"],
       attrs := [.of "ice-ufrag" "u", .of "ice-pwd" "p", .of "setup" "actpass",
        .of "sctp-port" "5000"] },
      { kind := .audio, port := 9, proto := "RTP/AVP", formats := ["0"]
        attrs := [.of "mid" "a b"] },
      { kind := .application, port := 0, proto := "UDP/DTLS/SCTP",
        formats := ["webrtc-datachannel"] }]

/-- The first is accepted in its place, and the others are rejected in theirs. -/
theorem mixedOffer_answered_in_place : ∃ (answer : Description) (channel audio off : Section),
    ((ofChannels ⟨fun i ↦ i, 0⟩).processOffer {} mixedOffer).result = .ok answer ∧
      answer.sections = [channel, audio, off] ∧
      channel.isRejected = false ∧ audio.isRejected = true ∧ off.isRejected = true ∧
      (∀ o ∈ mixedOffer.sections[0]?, channel.AnswersInPlace 0 o) ∧
      (∀ o ∈ mixedOffer.sections[1]?, audio.AnswersInPlace 1 o) ∧
      ∀ o ∈ mixedOffer.sections[2]?, off.AnswersInPlace 2 o := by
  have hrun : ((ofChannels ⟨fun i ↦ i, 0⟩).processOffer {} mixedOffer).result.toOption.map
      (fun answer ↦ answer.sections.map Section.isRejected) = some [false, true, true] := by
    decide +kernel
  cases h : ((ofChannels ⟨fun i ↦ i, 0⟩).processOffer {} mixedOffer).result with
  | error e =>
    rw [h] at hrun
    cases hrun
  | ok answer =>
    rw [h] at hrun
    obtain ⟨-, hplace⟩ := answer_stands_in_place (reachable_ofChannels _) {} h
    match hsections : answer.sections with
    | [channel, audio, off] =>
      simp only [Except.toOption, Option.map_some, hsections, List.map_cons, List.map_nil,
        Option.some.injEq, List.cons.injEq, and_true] at hrun
      rw [hsections] at hplace
      exact ⟨answer, channel, audio, off, rfl, hsections, hrun.1, hrun.2.1, hrun.2.2,
        fun o ho ↦ hplace 0 o channel ho rfl, fun o ho ↦ hplace 1 o audio ho rfl,
        fun o ho ↦ hplace 2 o off ho rfl⟩
    | [] | [_] | [_, _] | _ :: _ :: _ :: _ :: _ => simp [Except.toOption, hsections] at hrun

end Session

end OfferAnswer
