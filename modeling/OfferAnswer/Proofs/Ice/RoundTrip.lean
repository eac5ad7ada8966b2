import OfferAnswer.Ice.CandidateText
import OfferAnswer.Proofs.Ip.RoundTrip
import OfferAnswer.Proofs.Sdp.RoundTrip

/-!
# Candidates are read back

A candidate is read from many texts: the protocol in any case, numbers with a sign or with zeros in
front, four optional parts that are dropped. It is written in one way, and the grammar reads that
text as the same candidate (`WellFormed.read_text`). The parts of a candidate that are texts are
words, and what a part is followed by is a space or the end of the text.

What is made here from a local socket is read back, too: its foundation is a numeral, whichever hash
it comes from (`ofText?_text_of_host`).

## Blanks at the end

Before the grammar reads a text, blanks around it are trimmed. A word ends at a space or a line end
and at no other blank, so a user name fragment may end in a tab, if `network-cost` stood behind it
where it was read. It is the last word where it is written, and there trimming takes the tab away.
`ofText?_text` says what is left, and `text_read_back_iff` that there is no other way to lose
anything.
-/

namespace OfferAnswer

open Text (Filled isWordChar isBlank trimEnd)
open Sdp (Opens opens_nil)

/-! ## Words -/

namespace Text

theorem isWordChar_of_isDigit {c : Char} (h : c.isDigit = true) : isWordChar c = true := by
  simp only [isWordChar_iff, List.mem_cons, List.not_mem_nil, or_false]
  rintro (rfl | rfl | rfl) <;> exact absurd h (by decide)

theorem isWordChar_of_isHex {c : Char} (h : (Numeral.hexValue? c).isSome = true) :
    isWordChar c = true := by
  simp only [isWordChar_iff, List.mem_cons, List.not_mem_nil, or_false]
  rintro (rfl | rfl | rfl) <;> exact absurd h (by decide)

theorem filled_decimalChars (n : Nat) : Filled [' ', '\r', '\n'] (Numeral.decimalChars n) :=
  (filled_iff isWordChar_iff).mpr ⟨Numeral.decimalChars_ne_nil n,
    fun _ hc ↦ isWordChar_of_isDigit (Numeral.isDigit_of_mem_decimalChars hc)⟩

end Text

theorem Ipv4.isWordChar_of_mem_chars (x : Ipv4) : ∀ c ∈ x.chars, isWordChar c = true := by
  refine Text.forall_mem_joinWith (by simp [isWordChar]) fun w hw c hc ↦ ?_
  obtain ⟨b, -, rfl⟩ := List.mem_map.mp hw
  exact Text.isWordChar_of_isDigit (Numeral.isDigit_of_mem_decimalChars hc)

namespace Ipv6

theorem isWordChar_of_mem_groupChars (gs : List UInt16) :
    ∀ c ∈ groupChars gs, isWordChar c = true := by
  refine Text.forall_mem_joinWith (by simp [isWordChar]) fun w hw c hc ↦ ?_
  obtain ⟨g, -, rfl⟩ := List.mem_map.mp hw
  exact Text.isWordChar_of_isHex (Numeral.isHex_of_mem_hexChars hc)

theorem isWordChar_of_mem_chars (x : Ipv6) : ∀ c ∈ x.chars, isWordChar c = true := by
  rw [chars]
  cases x.mapped? with
  | some y => exact List.forall_mem_append.mpr ⟨by simp [isWordChar], y.isWordChar_of_mem_chars⟩
  | none =>
    dsimp only
    split
    · exact List.forall_mem_append.mpr ⟨List.forall_mem_append.mpr
        ⟨isWordChar_of_mem_groupChars _, by simp [isWordChar]⟩, isWordChar_of_mem_groupChars _⟩
    · exact isWordChar_of_mem_groupChars _

end Ipv6

namespace IpAddress

theorem ofChars?_chars (x : IpAddress) : ofChars? x.chars = some x := by
  have hread := x.ofText?_text
  rwa [ofText?, text, String.toList_ofList] at hread

/-- A written address is one word. -/
theorem filled_chars (x : IpAddress) : Filled [' ', '\r', '\n'] x.chars := by
  refine (Text.filled_iff Text.isWordChar_iff).mpr ⟨fun hnil ↦ ?_, ?_⟩
  · have hread := x.ofChars?_chars
    rw [hnil] at hread
    cases hread
  · cases x with
    | v4 x => exact x.isWordChar_of_mem_chars
    | v6 x => exact x.isWordChar_of_mem_chars

end IpAddress

theorem TransportProtocol.ofText?_text (p : TransportProtocol) : ofText? p.text = some p := by
  cases p <;> decide

namespace Candidate

variable {α : Type} {w cs rest : List Char} {c : Candidate}

/-! ## Parts -/

theorem readFixed_append (s : String) (rest : List Char) :
    readFixed s (s.toList ++ rest) = some rest := by
  rw [readFixed]
  induction s.toList with
  | nil => rfl
  | cons c cs ih => rw [List.cons_append, Text.stripLead, if_pos rfl, ih]

theorem readValue_filled {value : List Char → Option α} {a : α}
    (hw : Filled [' ', '\r', '\n'] w) (ha : value w = some a)
    (hrest : Opens [' ', '\r', '\n'] rest) : readValue value (w ++ rest) = some (a, rest) := by
  simp only [readValue, Sdp.readWord_filled hw hrest, Option.bind_eq_bind, Option.bind_some, ha,
    Option.pure_def]

theorem readValue_uint16 (n : UInt16) (hrest : Opens [' ', '\r', '\n'] rest) :
    readValue Numeral.readUInt16 (Numeral.decimalChars n.toNat ++ rest) = some (n, rest) :=
  readValue_filled (Text.filled_decimalChars _) (Numeral.readUInt16_decimalChars n) hrest

theorem readValue_ip (x : IpAddress) (hrest : Opens [' ', '\r', '\n'] rest) :
    readValue IpAddress.ofChars? (x.chars ++ rest) = some (x, rest) :=
  readValue_filled x.filled_chars x.ofChars?_chars hrest

theorem readKind_text (k : CandidateKind) (rest : List Char) :
    readKind (k.text.toList ++ rest) = some (k, rest) := by
  cases k <;> simp [readKind, CandidateKind.all, CandidateKind.text, readFixed, Text.stripLead]

theorem readPart_missing {lead : String} {body : List Char → Option (α × List Char)}
    (h : readFixed lead cs = none) : readPart lead body cs = some (none, cs) := by
  rw [readPart, h]

theorem readPart_append {lead : String} {body : List Char → Option (α × List Char)} {a : α}
    (h : body cs = some (a, rest)) :
    readPart lead body (lead.toList ++ cs) = some (some a, rest) := by
  rw [readPart, readFixed_append]
  simp only [h, Option.map_some]

/-! ## Writing, piece by piece -/

/-- The text up to the kind. -/
def mainChars (c : Candidate) : List Char :=
  "candidate:".toList ++ (c.foundation.toList ++ (" ".toList ++
    (Numeral.decimalChars c.component.toNat ++ (" ".toList ++ (c.protocol.text.toList ++
      (" ".toList ++ (Numeral.decimalChars c.priority.toNat ++ (" ".toList ++
        (c.address.ip.chars ++ (" ".toList ++ (Numeral.decimalChars c.address.port.toNat ++
          (" typ ".toList ++ c.kind.text.toList))))))))))))

/-- The text of the related address. -/
def relatedChars : Option SocketAddress → List Char
  | some r => " raddr ".toList ++ (r.ip.chars ++ (" rport ".toList ++
      Numeral.decimalChars r.port.toNat))
  | none => []

/-- The text of the user name fragment. -/
def ufragChars : Option String → List Char
  | some u => " ufrag ".toList ++ u.toList
  | none => []

theorem relatedChars_some (r : SocketAddress) (cs : List Char) :
    relatedChars (some r) ++ cs = " raddr ".toList ++ (r.ip.chars ++ (" rport ".toList ++
      (Numeral.decimalChars r.port.toNat ++ cs))) := by
  unfold relatedChars
  simp only [List.append_assoc]

theorem relatedChars_none (cs : List Char) : relatedChars none ++ cs = cs := by
  unfold relatedChars
  rfl

theorem ufragChars_some (u : String) : ufragChars (some u) = " ufrag ".toList ++ u.toList := by
  unfold ufragChars
  rfl

theorem ufragChars_none : ufragChars none = [] := by
  unfold ufragChars
  rfl

theorem toList_text (c : Candidate) :
    c.text.toList = c.mainChars ++ (relatedChars c.related ++ ufragChars c.ufrag) := by
  unfold text mainChars relatedChars ufragChars
  cases c.related <;> cases c.ufrag <;>
    simp only [IpAddress.text, String.toList_append, String.toList_ofList, Numeral.toList_decimal,
      List.append_assoc, List.nil_append, String.toList_empty, List.append_nil]

/-! ## Reading, piece by piece -/

/-- Reads the parts that may follow the kind, up to the end. -/
def readTail (cs : List Char) : Option (Option SocketAddress × Option (List Char)) := do
  let (_, cs) ← readPart " tcptype " Text.readWord cs
  let (related, cs) ← readPart " raddr " readRelated cs
  let (_, cs) ← readPart " generation " Text.readWord cs
  let (_, cs) ← readPart " network-id " Text.readWord cs
  let (ufrag, cs) ← readPart " ufrag " Text.readWord cs
  let (_, cs) ← readPart " network-cost " Text.readWord cs
  if cs ≠ [] then none
  return (related, ufrag)

/-- What can stand in the text of a candidate. -/
structure WellFormed (c : Candidate) : Prop where
  /-- The foundation is a word. -/
  foundation : Filled [' ', '\r', '\n'] c.foundation.toList
  /-- The address is in no zone. -/
  zone : c.address.zone = 0
  /-- The related address is in no zone. -/
  related : ∀ r ∈ c.related, r.zone = 0
  /-- The user name fragment is a word. -/
  ufrag : ∀ u ∈ c.ufrag, Filled [' ', '\r', '\n'] u.toList

theorem bind_of_eq {β : Type} {o : Option α} {f : α → Option β} {a : α} {r : Option β}
    (h : o = some a) (hf : f a = r) : (o >>= f) = r := by
  rw [h]
  exact hf

theorem opens_fixed {s : String} (h : s.toList.head? = some ' ') (cs : List Char) :
    Opens [' ', '\r', '\n'] (s.toList ++ cs) := by
  intro c hc
  rw [List.head?_append, h] at hc
  cases hc
  exact List.mem_cons_self

/-- The text up to the kind is read as it was written, and the rest as it comes. -/
theorem WellFormed.read_main (h : c.WellFormed) (tail : List Char) :
    read (c.mainChars ++ tail) = (readTail tail).map fun (related, ufrag) ↦
      { c with related := related, ufrag := ufrag.map String.ofList } := by
  have hspace := opens_fixed (s := " ") (by simp)
  have htyp := opens_fixed (s := " typ ") (by simp)
  have haddress : { ip := c.address.ip, port := c.address.port } = c.address := by
    rw [← h.zone]
  have hprotocol : Filled [' ', '\r', '\n'] c.protocol.text.toList := by
    cases c.protocol <;> simp [Filled, TransportProtocol.text]
  have hnamed : TransportProtocol.ofText? (String.ofList c.protocol.text.toList) =
      some c.protocol := by
    rw [String.ofList_toList, TransportProtocol.ofText?_text]
  unfold mainChars
  simp only [List.append_assoc]
  -- every word ends where the fixed text behind it begins, since that begins with a space
  rw [read]
  refine bind_of_eq (readFixed_append _ _) ?_
  refine bind_of_eq (Sdp.readWord_filled h.foundation (hspace _)) ?_
  refine bind_of_eq (readFixed_append _ _) ?_
  refine bind_of_eq (readValue_uint16 c.component (hspace _)) ?_
  refine bind_of_eq (readFixed_append _ _) ?_
  refine bind_of_eq (readValue_filled hprotocol hnamed (hspace _)) ?_
  refine bind_of_eq (readFixed_append _ _) ?_
  refine bind_of_eq (readValue_filled (Text.filled_decimalChars _)
    (Numeral.readUInt32_decimalChars c.priority) (hspace _)) ?_
  refine bind_of_eq (readFixed_append _ _) ?_
  refine bind_of_eq (readValue_ip c.address.ip (hspace _)) ?_
  refine bind_of_eq (readFixed_append _ _) ?_
  refine bind_of_eq (readValue_uint16 c.address.port (htyp _)) ?_
  refine bind_of_eq (readFixed_append _ _) ?_
  refine bind_of_eq (readKind_text _ _) ?_
  simp only [readTail, Option.bind_eq_bind, Option.map_bind, Function.comp_def, apply_ite,
    Option.bind_none, Option.map_none, Option.pure_def, Option.map_some, String.ofList_toList,
    haddress]

theorem readRelated_chars {r : SocketAddress} (hzone : r.zone = 0)
    (hrest : Opens [' ', '\r', '\n'] rest) :
    readRelated (r.ip.chars ++ (" rport ".toList ++ (Numeral.decimalChars r.port.toNat ++ rest))) =
      some (r, rest) := by
  have hport := opens_fixed (s := " rport ") (by simp)
  rw [readRelated]
  refine bind_of_eq (readValue_ip r.ip (hport _)) ?_
  refine bind_of_eq (readFixed_append _ _) ?_
  refine bind_of_eq (readValue_uint16 r.port hrest) ?_
  rw [← hzone]
  rfl

/-- Behind a related address, if there is one, the user name fragment is read, and nothing else may
follow. -/
theorem readTail_related {related : Option SocketAddress} {ufrag : Option (List Char)}
    (hzone : ∀ r ∈ related, r.zone = 0) (hcs : Opens [' ', '\r', '\n'] cs)
    (hmissing : ∀ lead ∈ [" tcptype ", " raddr ", " generation ", " network-id "],
      readFixed lead cs = none)
    (hufrag : readPart " ufrag " Text.readWord cs = some (ufrag, rest))
    (hcost : readFixed " network-cost " rest = none) :
    readTail (relatedChars related ++ cs) = if rest = [] then some (related, ufrag) else none := by
  simp only [List.forall_mem_cons] at hmissing
  obtain ⟨htype, haddress, hgeneration, hnetwork, -⟩ := hmissing
  -- `tcptype` would stand in front of the related address, and all else stands behind it
  have hfirst : readFixed " tcptype " (relatedChars related ++ cs) = none := by
    cases related with
    | none => rwa [relatedChars_none]
    | some r => simp [relatedChars_some, readFixed, Text.stripLead]
  have hrelated : readPart " raddr " readRelated (relatedChars related ++ cs) =
      some (related, cs) := by
    cases related with
    | none =>
      rw [relatedChars_none]
      exact readPart_missing haddress
    | some r =>
      rw [relatedChars_some]
      exact readPart_append (readRelated_chars (hzone r rfl) hcs)
  rw [readTail]
  refine bind_of_eq (readPart_missing hfirst) (bind_of_eq hrelated ?_)
  refine bind_of_eq (readPart_missing hgeneration) (bind_of_eq (readPart_missing hnetwork) ?_)
  refine bind_of_eq hufrag (bind_of_eq (readPart_missing hcost) ?_)
  by_cases hrest : rest = []
  · simp [hrest]
  · simp [hrest]

/-- What was written behind the kind is read, if the user name fragment is a word. -/
theorem readTail_chars {related : Option SocketAddress} (hzone : ∀ r ∈ related, r.zone = 0)
    (ufrag : Option String)
    (hufrag : ∀ u ∈ ufrag, Filled [' ', '\r', '\n'] u.toList) :
    readTail (relatedChars related ++ ufragChars ufrag) =
      some (related, ufrag.map String.toList) := by
  cases ufrag with
  | none =>
    rw [ufragChars_none, readTail_related hzone (opens_nil _)
      (by simp [readFixed, Text.stripLead]) (readPart_missing (by simp [readFixed, Text.stripLead]))
      (by simp [readFixed, Text.stripLead])]
    exact if_pos rfl
  | some u =>
    have hword : Text.readWord (u.toList ++ []) = some (u.toList, []) :=
      Sdp.readWord_filled (hufrag u rfl) (opens_nil _)
    rw [List.append_nil] at hword
    rw [ufragChars_some, readTail_related hzone (opens_fixed (by simp) _)
      (by simp [readFixed, Text.stripLead]) (readPart_append hword)
      (by simp [readFixed, Text.stripLead])]
    exact if_pos rfl

/-- The name of a user name fragment without its value is refused. -/
theorem readTail_bare {related : Option SocketAddress} (hzone : ∀ r ∈ related, r.zone = 0) :
    readTail (relatedChars related ++ " ufrag".toList) = none := by
  refine (readTail_related hzone ?_ (by simp [readFixed, Text.stripLead])
    (readPart_missing (by simp [readFixed, Text.stripLead]))
    (by simp [readFixed, Text.stripLead])).trans ?_
  · rw [← List.append_nil " ufrag".toList]
    exact opens_fixed (by simp) []
  · exact if_neg (by simp)

/-- **The grammar reads back what is written.** -/
theorem WellFormed.read_text (h : c.WellFormed) : read c.text.toList = some c := by
  rw [toList_text, h.read_main, readTail_chars h.related c.ufrag h.ufrag]
  simp [Option.map_map, Function.comp_def]

/-! ## What is read is well formed -/

theorem yields_readPart {lead : String} {body : Sdp.Reader α} {P : α → Prop} (h : body.Yields P) :
    Sdp.Reader.Yields (fun o : Option α ↦ ∀ a ∈ o, P a) (readPart lead body) := by
  intro cs o rest hread
  rw [readPart] at hread
  split at hread
  · cases hread
    exact nofun
  · obtain ⟨⟨a, rest'⟩, hbody, hread⟩ := Option.map_eq_some_iff.mp hread
    cases hread
    rintro _ ⟨rfl⟩
    exact h _ _ _ hbody

theorem yields_readRelated :
    Sdp.Reader.Yields (fun r : SocketAddress ↦ r.zone = 0) readRelated := by
  intro cs r rest hread
  simp only [readRelated, Option.bind_eq_bind, Option.bind_eq_some_iff] at hread
  obtain ⟨⟨ip, cs₁⟩, -, cs₂, -, ⟨port, cs₃⟩, -, hread⟩ := hread
  cases hread
  rfl

theorem yields_read (h : read cs = some c) : c.WellFormed := by
  rw [read] at h
  obtain ⟨_, -, h⟩ := Option.bind_eq_some_iff.mp h
  obtain ⟨⟨foundation, _⟩, hfoundation, h⟩ := Option.bind_eq_some_iff.mp h
  -- component, protocol, priority, address, port and kind, each behind a fixed text
  iterate 6
    obtain ⟨_, -, h⟩ := Option.bind_eq_some_iff.mp h
    obtain ⟨⟨_, _⟩, -, h⟩ := Option.bind_eq_some_iff.mp h
  obtain ⟨⟨_, _⟩, -, h⟩ := Option.bind_eq_some_iff.mp h
  obtain ⟨⟨related, _⟩, hrelated, h⟩ := Option.bind_eq_some_iff.mp h
  obtain ⟨⟨_, _⟩, -, h⟩ := Option.bind_eq_some_iff.mp h
  obtain ⟨⟨_, _⟩, -, h⟩ := Option.bind_eq_some_iff.mp h
  obtain ⟨⟨ufrag, _⟩, hufrag, h⟩ := Option.bind_eq_some_iff.mp h
  obtain ⟨⟨_, _⟩, -, h⟩ := Option.bind_eq_some_iff.mp h
  dsimp only at h
  split at h
  · cases h
  · cases h
    refine ⟨?_, rfl, yields_readPart yields_readRelated _ _ _ hrelated, ?_⟩
    · simpa using Sdp.yields_readWord _ _ _ hfoundation
    · simpa using yields_readPart Sdp.yields_readWord _ _ _ hufrag

/-! ## What trimming takes -/

/-- What is left of the text of the user name fragment when it is the last word and is trimmed. -/
def trimmedChars : Option String → List Char
  | some u =>
    if trimEnd u.toList = [] then " ufrag".toList else " ufrag ".toList ++ trimEnd u.toList
  | none => []

theorem trimEnd_append_ufragChars (hw : trimEnd w = w) (ufrag : Option String) :
    trimEnd (w ++ ufragChars ufrag) = w ++ trimmedChars ufrag := by
  cases ufrag with
  | none => rw [ufragChars_none, trimmedChars, List.append_nil, hw]
  | some u =>
    rw [ufragChars_some, ← List.append_assoc, trimmedChars, Text.trimEnd_append]
    have hname : trimEnd " ufrag ".toList = " ufrag".toList := by decide
    split
    -- with nothing left of the value, the space in front of it is at the end
    · rw [Text.trimEnd_append_of_ne (by rw [hname]; simp), hname]
    · rw [List.append_assoc]

theorem trimEnd_append_decimalChars (w : List Char) (n : Nat) :
    trimEnd (w ++ Numeral.decimalChars n) = w ++ Numeral.decimalChars n := by
  have hself : trimEnd (Numeral.decimalChars n) = Numeral.decimalChars n :=
    Text.trimEnd_eq_self_iff.mpr fun d hd ↦ Text.isBlank_of_isDigit
      (Numeral.isDigit_of_mem_decimalChars (List.mem_of_getLast? hd))
  rw [Text.trimEnd_append_of_ne (by rw [hself]; exact Numeral.decimalChars_ne_nil n), hself]

theorem trimEnd_append_kind (w : List Char) (k : CandidateKind) :
    trimEnd (w ++ k.text.toList) = w ++ k.text.toList := by
  have hself : trimEnd k.text.toList = k.text.toList := by cases k <;> decide
  rw [Text.trimEnd_append_of_ne (by rw [hself]; cases k <;> decide), hself]

/-- Up to the user name fragment, a written candidate ends in no blank. -/
theorem trimEnd_main (c : Candidate) :
    trimEnd (c.mainChars ++ relatedChars c.related) = c.mainChars ++ relatedChars c.related := by
  cases c.related with
  | none =>
    rw [← List.append_nil (relatedChars none), relatedChars_none, List.append_nil]
    unfold mainChars
    simp only [← List.append_assoc, trimEnd_append_kind]
  | some r =>
    unfold relatedChars
    simp only [← List.append_assoc, trimEnd_append_decimalChars]

theorem trim_text (c : Candidate) :
    Text.trim c.text.toList = c.mainChars ++ (relatedChars c.related ++ trimmedChars c.ufrag) := by
  rw [Text.trim_of_head, toList_text, ← List.append_assoc,
    trimEnd_append_ufragChars c.trimEnd_main, List.append_assoc]
  rw [toList_text]
  unfold mainChars
  simp [isBlank]

/-- A candidate whose user name fragment has lost the blanks at its end. -/
def trimmed (c : Candidate) : Candidate :=
  { c with ufrag := c.ufrag.map fun u ↦ String.ofList (trimEnd u.toList) }

theorem trimmed_eq_self_iff :
    c.trimmed = c ↔ ∀ u ∈ c.ufrag, ∀ x ∈ u.toList.getLast?, isBlank x = false := by
  have hkept (u : String) : String.ofList (trimEnd u.toList) = u ↔
      ∀ x ∈ u.toList.getLast?, isBlank x = false := by
    rw [← Text.trimEnd_eq_self_iff, ← String.toList_inj, String.toList_ofList]
  simp only [← hkept]
  constructor
  · intro h u hu
    have hufrag := congrArg ufrag h
    rw [trimmed, hu] at hufrag
    exact Option.some_inj.mp hufrag
  · intro h
    rw [trimmed]
    cases hu : c.ufrag with
    | none => rw [Option.map_none, ← hu]
    | some u => rw [Option.map_some, h u hu, ← hu]

/-- A word without the blanks at its end is a word, unless nothing is left of it. -/
theorem filled_trimEnd (hw : Filled [' ', '\r', '\n'] w) (hne : trimEnd w ≠ []) :
    Filled [' ', '\r', '\n'] (trimEnd w) :=
  ⟨hne, fun c hc hmem ↦ hw.2 c hc
    (List.mem_reverse.mp ((List.dropWhile_sublist _).subset (List.mem_reverse.mp hmem)))⟩

/-- What is read back is the candidate with its user name fragment trimmed. If that leaves nothing
of it, nothing is read. -/
theorem WellFormed.ofText?_text (h : c.WellFormed) :
    ofText? c.text = if c.trimmed.ufrag = some "" then none else some c.trimmed := by
  have hlead (tail : List Char) : Text.stripLead "a=".toList (c.mainChars ++ tail) = none := by
    unfold mainChars
    simp [Text.stripLead]
  rw [ofText?, trim_text, hlead, Option.getD_none, h.read_main, trimmed]
  cases hu : c.ufrag with
  | none =>
    rw [trimmedChars, ← ufragChars_none, readTail_chars h.related none nofun]
    rfl
  | some u =>
    rw [trimmedChars, Option.map_some]
    by_cases hblank : trimEnd u.toList = []
    · rw [if_pos hblank, readTail_bare h.related, hblank]
      rfl
    · have hword := filled_trimEnd (h.ufrag u hu) hblank
      have hread := readTail_chars h.related (some (String.ofList (trimEnd u.toList)))
        (by simpa using hword)
      rw [ufragChars_some, String.toList_ofList (l := trimEnd u.toList)] at hread
      rw [if_neg hblank, hread, if_neg (by simpa [← String.toList_inj] using hblank)]
      simp

section Host

variable [Hashable (CandidateKind × IpAddress × TransportProtocol)] {address : SocketAddress}
  {protocol : TransportProtocol} {component : UInt16}

theorem host_eq_ok_iff : host address protocol component = .ok c ↔
    address.ip.isReachable = true ∧ (component = 1 ∨ component = 2) ∧
      c = ⟨foundationOf .host address.ip protocol, component, protocol, hostPriority component,
        address, .host, none, none⟩ := by
  rw [host]
  by_cases hip : address.ip.isReachable = true
  · rw [if_neg (by rw [hip]; decide)]
    by_cases hcomponent : component = 1 ∨ component = 2
    · rw [if_neg fun h ↦ hcomponent.elim h.1 h.2, Except.ok.injEq, eq_comm]
      exact ⟨fun h ↦ ⟨hip, hcomponent, h⟩, fun h ↦ h.2.2⟩
    · rw [if_pos (not_or.mp hcomponent)]
      exact ⟨nofun, fun h ↦ absurd h.2.1 hcomponent⟩
  · rw [if_pos (by rw [Bool.eq_false_of_not_eq_true hip]; rfl)]
    exact ⟨nofun, fun h ↦ absurd h.1 hip⟩

theorem wellFormed_of_host (h : host address protocol component = .ok c) :
    { c with address := { address with zone := 0 } }.WellFormed := by
  obtain ⟨-, -, rfl⟩ := host_eq_ok_iff.mp h
  refine ⟨?_, rfl, nofun, nofun⟩
  rw [foundationOf, Numeral.decimal, String.toList_ofList]
  exact Text.filled_decimalChars _

/-- **A host candidate is read back**, whichever hash its foundation comes from. Only the zone of
its address has no place in the text. -/
theorem ofText?_text_of_host (h : host address protocol component = .ok c) :
    ofText? c.text = some { c with address := { address with zone := 0 } } := by
  have hread := (wellFormed_of_host h).ofText?_text
  obtain ⟨-, -, rfl⟩ := host_eq_ok_iff.mp h
  exact hread

end Host

/-- **The grammar reads a written candidate as it was, and trimming before it takes no more than
blanks at the end of the user name fragment.** A candidate is read back exactly if there are
none. -/
theorem text_read_back_iff {s : String} (h : ofText? s = some c) :
    read c.text.toList = some c ∧
      ofText? c.text = (if c.trimmed.ufrag = some "" then none else some c.trimmed) ∧
      (ofText? c.text = some c ↔ ∀ u ∈ c.ufrag, ∀ x ∈ u.toList.getLast?, isBlank x = false) := by
  have hwell : c.WellFormed := yields_read h
  refine ⟨hwell.read_text, hwell.ofText?_text, ?_⟩
  rw [← trimmed_eq_self_iff, hwell.ofText?_text]
  constructor
  · intro heq
    split at heq
    · cases heq
    · exact Option.some_inj.mp heq
  · intro heq
    rw [heq, if_neg]
    intro hempty
    exact (hwell.ufrag "" hempty).1 rfl

/-- A candidate behind an address translation, with every part that is dropped. -/
def reflexive : String :=
  "a=candidate:1 1 UDP +5 1.2.3.4 010 typ srflx raddr ::1 rport 9 generation 0 ufrag x " ++
    "network-cost 10"

theorem reflexive_text_read_back : ∃ c, ofText? reflexive = some c ∧ read c.text.toList = some c ∧
    ofText? c.text = (if c.trimmed.ufrag = some "" then none else some c.trimmed) ∧
    (ofText? c.text = some c ↔ ∀ u ∈ c.ufrag, ∀ x ∈ u.toList.getLast?, isBlank x = false) := by
  have hread : (ofText? reflexive).isSome = true := by decide +kernel
  obtain ⟨c, hc⟩ := Option.isSome_iff_exists.mp hread
  exact ⟨c, hc, text_read_back_iff hc⟩

/-- A candidate whose user name fragment ends in a tab, which something follows. -/
def tabbed : String := "candidate:1 1 udp 1 1.2.3.4 1 typ host ufrag x\t network-cost 5"

/-- Nothing follows the user name fragment where it is written, and its tab is not read back. -/
theorem tab_not_read_back : ∃ c, ofText? tabbed = some c ∧ c.ufrag = some "x\t" ∧
    ofText? c.text = some { c with ufrag := some "x" } ∧ ofText? c.text ≠ some c := by
  have hread : (ofText? tabbed).isSome = true := by decide +kernel
  obtain ⟨c, hc⟩ := Option.isSome_iff_exists.mp hread
  have hufrag : (ofText? tabbed).bind (·.ufrag) = some "x\t" := by decide +kernel
  have hback : (ofText? tabbed).bind (fun c ↦ ofText? c.text) =
      (ofText? tabbed).map ({ · with ufrag := some "x" }) := by decide +kernel
  simp only [hc, Option.bind_some, Option.map_some] at hufrag hback
  refine ⟨c, hc, hufrag, hback, fun hsame ↦ ?_⟩
  have hlost : some "x\t" = some "x" :=
    hufrag.symm.trans (congrArg ufrag (Option.some_inj.mp (hsame.symm.trans hback)))
  exact absurd hlost (by decide)

end Candidate

end OfferAnswer
