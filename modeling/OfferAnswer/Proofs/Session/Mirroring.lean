import OfferAnswer.Proofs.Session.FirstRound
import OfferAnswer.Proofs.Session.Leakage

/-!
# What becomes of the offerer's names

An answer calls each section by the name that the offer gives it, as far as an identifier can hold
that name: the first 16 characters, each cleaned. `Mid.written` is that form. It is written into
accepted and rejected sections alike, over whatever a rejection has kept of the offer.

So a name is mirrored exactly if it is plain, and names are told apart exactly if their written
forms are. A peer whose names are plain sees its own names only.
-/

namespace OfferAnswer.Session

open Mid (written IsPlain)

/-- **An answer gives back the names of an offer in their written form**, and by nothing else are
sections told apart. -/
theorem names_mirrored {s : Session} (hs : s.Reachable) (ports : PortAllocator)
    {remote answer : Description} (hok : (s.processOffer ports remote).result = .ok answer) :
    (∀ (i : Nat) o name, remote.sections[i]? = some o → o.attr? "mid" = some name →
      ∃ a n, answer.sections[i]? = some a ∧ a.attrsOf "mid" = [.of "mid" (written name)] ∧
        (written name = name ↔ IsPlain name) ∧
        (s.processOffer ports remote).session.negotiated[i]? = some n ∧ n.mid = .ofText name) ∧
    ∀ (i j : Nat) o o' name name' n n', remote.sections[i]? = some o →
      remote.sections[j]? = some o' → o.attr? "mid" = some name → o'.attr? "mid" = some name' →
      (s.processOffer ports remote).session.negotiated[i]? = some n →
      (s.processOffer ports remote).session.negotiated[j]? = some n' →
        (n.mid = n'.mid ↔ written name = written name') := by
  have hsound := hs.sound
  rcases processOffer_cases hsound.exclusive hsound.hasPem hsound.answerSetup_ne ports remote with
    ⟨e, hr⟩ | ⟨-, -, run, hr⟩
  · rw [hr] at hok
    cases hok
  · rw [hr] at hok ⊢
    cases hok
    rw [run.negotiated_concluded]
    -- a section is known by what an identifier keeps of its name
    have hnamed : ∀ {i : Nat} {o : Section} {name : String}, remote.sections[i]? = some o →
        o.attr? "mid" = some name → midAt remote i = .ofText name := by
      intro i o name ho hname
      rw [midAt_eq ho, Section.mid?, hname]
      rfl
    constructor
    · intro i o name ho hname
      obtain ⟨q, r, a, n, ha, hn, hrow⟩ := run.exists_row_of_offered ho
      refine ⟨a, n, ha, ?_, Mid.written_eq_self_iff, hn,
        (run.mid_outcome hn).trans (hnamed ho hname)⟩
      rw [hrow.attrsOf_mid, hnamed ho hname, midAttr, Mid.text_ofText]
    · intro i j o o' name name' n n' ho ho' hname hname' hn hn'
      rw [run.mid_outcome hn, run.mid_outcome hn', hnamed ho hname, hnamed ho' hname']
      exact Mid.ofText_inj

/-- An offer of data channels of given names. -/
def channelsNamed (names : List String) : Description where
  session := { id := 1, version := 1 }
  sections := names.map fun name ↦
    { kind := .application, port := 9, proto := "UDP/DTLS/SCTP", formats := ["webrtc-datachannel"],
      attrs := [.of "mid" name, .of "ice-ufrag" "u", .of "ice-pwd" "p", .of "setup" "actpass",
        .of "sctp-port" "5000"] }

/-- A plain name is mirrored, and one that is not still names its section apart. -/
theorem channel_names_mirrored :
    let offered := channelsNamed ["data-1", "my channel: the second"]
    let r := (ofChannels ⟨fun i ↦ i, 0⟩).processOffer {} offered
    ∃ answer a a' n n', r.result = .ok answer ∧
      answer.sections[0]? = some a ∧ a.attrsOf "mid" = [.of "mid" "data-1"] ∧
      answer.sections[1]? = some a' ∧ a'.attrsOf "mid" = [.of "mid" "my_channel__the_"] ∧
      r.session.negotiated[0]? = some n ∧ r.session.negotiated[1]? = some n' ∧ n.mid ≠ n'.mid := by
  intro offered r
  have hrun : r.result.isOk = true := by decide +kernel
  cases h : r.result with
  | error e =>
    rw [h] at hrun
    cases hrun
  | ok answer =>
    obtain ⟨hmirrored, happart⟩ := names_mirrored (reachable_ofChannels _) {} h
    obtain ⟨a, n, ha, hdeclared, -, hn, -⟩ := hmirrored 0 _ _ rfl rfl
    obtain ⟨a', n', ha', hdeclared', -, hn', -⟩ := hmirrored 1 _ _ rfl rfl
    have hsame := happart 0 1 _ _ _ _ n n' rfl rfl rfl rfl hn hn'
    refine ⟨answer, a, a', n, n', rfl, ha, ?_, ha', ?_, hn, hn', fun hmid ↦ ?_⟩
    · rw [hdeclared]
      decide
    · rw [hdeclared']
      decide
    · exact absurd (hsame.mp hmid) (by decide)

/-- An offer of data channels whose names differ in a character that is cleaned. -/
def lookalikes : Description := channelsNamed ["a.b", "a+b"]

theorem processOffer_lookalikes : ∃ answer a a' n n',
    ((ofChannels ⟨fun i ↦ i, 0⟩).processOffer {} lookalikes).result = .ok answer ∧
      answer.sections = [a, a'] ∧ a.attr? "mid" = some "a_b" ∧
      ((ofChannels ⟨fun i ↦ i, 0⟩).processOffer {} lookalikes).session.negotiated = [n, n'] ∧
      n.mid = n'.mid := by
  have hdeclared : ((ofChannels ⟨fun i ↦ i, 0⟩).processOffer {} lookalikes).result.toOption.map
      (·.sections.map (·.attr? "mid")) = some [some "a_b", some "a_b"] := by
    decide +kernel
  have hmids : ((ofChannels ⟨fun i ↦ i, 0⟩).processOffer {} lookalikes).session.negotiated.map
      (·.mid) = [.ofText "a_b", .ofText "a_b"] := by
    decide +kernel
  generalize (ofChannels ⟨fun i ↦ i, 0⟩).processOffer {} lookalikes = r at hdeclared hmids ⊢
  cases h : r.result with
  | error e =>
    rw [h] at hdeclared
    cases hdeclared
  | ok answer =>
    rw [h] at hdeclared
    replace hdeclared : answer.sections.map (·.attr? "mid") = [some "a_b", some "a_b"] :=
      Option.some_inj.mp hdeclared
    obtain ⟨a, a', ha⟩ := List.length_eq_two.mp (by simpa using congrArg List.length hdeclared)
    obtain ⟨n, n', hn⟩ := List.length_eq_two.mp (by simpa using congrArg List.length hmids)
    rw [ha] at hdeclared
    rw [hn] at hmids
    obtain ⟨hmid, hrest⟩ := List.cons.inj hmids
    exact ⟨answer, a, a', n, n', rfl, ha, (List.cons.inj hdeclared).1, hn,
      hmid.trans (List.cons.inj hrest).1.symm⟩

/-- Two names of one written form are neither mirrored nor told apart. -/
theorem lookalike_names_confused :
    (¬∀ (s : Session) (ports : PortAllocator) (remote answer : Description), s.Reachable →
      (s.processOffer ports remote).result = .ok answer →
        ∀ (i : Nat) o a name, remote.sections[i]? = some o → answer.sections[i]? = some a →
          o.attr? "mid" = some name → a.attr? "mid" = some name) ∧
    ¬∀ (s : Session) (ports : PortAllocator) (remote answer : Description), s.Reachable →
      (s.processOffer ports remote).result = .ok answer →
        ∀ (i j : Nat) o o' name name' n n', remote.sections[i]? = some o →
          remote.sections[j]? = some o' → o.attr? "mid" = some name →
          o'.attr? "mid" = some name' → name ≠ name' →
          (s.processOffer ports remote).session.negotiated[i]? = some n →
          (s.processOffer ports remote).session.negotiated[j]? = some n' → n.mid ≠ n'.mid := by
  obtain ⟨answer, a, a', n, n', hok, ha, hdeclared, hn, hmid⟩ := processOffer_lookalikes
  constructor
  · intro hmirrored
    have hname := hmirrored (ofChannels ⟨fun i ↦ i, 0⟩) {} lookalikes answer
      (reachable_ofChannels _) hok 0 _ a "a.b" rfl (by rw [ha]; rfl) rfl
    rw [hdeclared] at hname
    exact absurd hname (by decide)
  · intro hdistinct
    have happart := hdistinct (ofChannels ⟨fun i ↦ i, 0⟩) {} lookalikes answer
      (reachable_ofChannels _) hok 0 1 _ _ "a.b" "a+b" n n' rfl rfl rfl rfl (by decide)
      (by rw [hn]; rfl) (by rw [hn]; rfl)
    exact happart hmid

end OfferAnswer.Session
