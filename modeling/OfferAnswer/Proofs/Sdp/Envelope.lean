import OfferAnswer.Proofs.Json.RoundTrip
import OfferAnswer.Sdp.Envelope

/-!
# What is in an envelope

A description travels as a JSON object, and its members are judged one after the other. What comes
of them does not depend on that order: an object is opened exactly when there is one value for
`type` and it is the word of the role, and one value for `sdp` and it is a text that can be read.

The two keys are two slots that do not see each other. `SlotTakes` is what becomes of one of them:
it stays as it is when no value comes, it takes one text if it is empty, and everything else is an
error. Taking composes, so a run over members says of each slot what a single member says of it,
with the values of all members under the key.

The text around the members is the business of the JSON reader. `Delivers` says that a text is an
object with certain members, of any keys and with any repetitions.
-/

namespace OfferAnswer

theorem DescriptionRole.text_injective : Function.Injective text := by
  rintro ⟨⟩ ⟨⟩ h <;> first | rfl | exact absurd h (by decide)

namespace Envelope

variable {role : DescriptionRole} {d : Description} {f f' : Found} {key s text : String} {v : Json}
  {members members' : List (String × Json)} {o o' o'' : Option String} {vs ws : List Json}

/-! ## Steps that can fail -/

theorem bind_eq_ok_iff {ε α β : Type} {x : Except ε α} {step : α → Except ε β} {b : β} :
    x >>= step = .ok b ↔ ∃ a, x = .ok a ∧ step a = .ok b := by
  rcases x with e | a
  · exact ⟨nofun, nofun⟩
  · exact ⟨fun h ↦ ⟨a, rfl, h⟩, by rintro ⟨_, ⟨⟩, h⟩; exact h⟩

theorem toOption_eq_some_iff {ε α : Type} {x : Except ε α} {a : α} :
    x.toOption = some a ↔ x = .ok a := by
  cases x <;> simp [Except.toOption]

/-! ## Members and their keys -/

/-- Members as the reader gives them. -/
def named (members : List (String × Json)) : List (Option String × Json) :=
  members.map fun m ↦ (some m.1, m.2)

/-- The values of the members with a key, in order. -/
def valuesOf (key : String) (members : List (String × Json)) : List Json :=
  (members.filter (·.1 = key)).map (·.2)

theorem valuesOf_append (key : String) (members members' : List (String × Json)) :
    valuesOf key (members ++ members') = valuesOf key members ++ valuesOf key members' := by
  rw [valuesOf, List.filter_append, List.map_append]
  rfl

theorem valuesOf_self (key : String) (v : Json) : valuesOf key [(key, v)] = [v] := by
  simp [valuesOf]

theorem valuesOf_of_ne {key key' : String} (h : key' ≠ key) (v : Json) :
    valuesOf key [(key', v)] = [] := by
  simp [valuesOf, h]

/-- Members in another order have the same values in another order. -/
theorem valuesOf_perm (key : String) (h : members.Perm members') :
    (valuesOf key members).Perm (valuesOf key members') :=
  (h.filter _).map _

theorem valuesOf_eq_singleton_congr (key : String) (h : members.Perm members') (v : Json) :
    valuesOf key members = [v] ↔ valuesOf key members' = [v] := by
  rw [← List.perm_singleton, ← List.perm_singleton]
  exact ⟨(valuesOf_perm key h).symm.trans, (valuesOf_perm key h).trans⟩

/-! ## One slot -/

/-- What becomes of a slot when values come for it: an empty one takes a single text. -/
inductive SlotTakes : Option String → List Json → Option String → Prop
  /-- No value comes. -/
  | rest (o : Option String) : SlotTakes o [] o
  /-- The first text comes. -/
  | fill (s : String) : SlotTakes none [.str s] (some s)

theorem slotTakes_nil_iff : SlotTakes o [] o' ↔ o' = o := by
  constructor
  · rintro ⟨⟩
    rfl
  · rintro rfl
    exact .rest _

theorem slotTakes_singleton_iff :
    SlotTakes o [v] o' ↔ o = none ∧ ∃ s, v = .str s ∧ o' = some s := by
  constructor
  · rintro ⟨⟩
    exact ⟨rfl, _, rfl, rfl⟩
  · rintro ⟨rfl, s, rfl, rfl⟩
    exact .fill s

theorem slotTakes_none_iff : SlotTakes none vs (some text) ↔ vs = [.str text] := by
  constructor
  · rintro ⟨⟩
    rfl
  · rintro rfl
    exact .fill text

theorem slotTakes_append_iff :
    SlotTakes o (vs ++ ws) o'' ↔ ∃ o', SlotTakes o vs o' ∧ SlotTakes o' ws o'' := by
  constructor
  · intro h
    rcases vs with _ | ⟨v, vs⟩
    · exact ⟨o, .rest o, h⟩
    · generalize hall : v :: vs ++ ws = all at h
      cases h with
      | rest => cases hall
      | fill s =>
        obtain ⟨rfl, hnil⟩ := List.cons.inj hall
        obtain ⟨rfl, rfl⟩ := List.append_eq_nil_iff.mp hnil
        exact ⟨some s, .fill s, .rest _⟩
  · rintro ⟨o', hvs, hws⟩
    cases hvs with
    | rest => exact hws
    | fill s =>
      cases hws
      exact .fill s

/-! ## Two slots -/

/-- What becomes of both slots when members come. -/
def Found.Takes (f : Found) (members : List (String × Json)) (f' : Found) : Prop :=
  SlotTakes f.type (valuesOf "type" members) f'.type ∧
    SlotTakes f.sdp (valuesOf "sdp" members) f'.sdp

theorem Found.add_of_other (f : Found) (v : Json) (htype : key ≠ "type") (hsdp : key ≠ "sdp") :
    f.add (some key, v) = .ok f := by
  have hkey : f.checkKey (some key) = .ok () := by
    rw [Found.checkKey, if_neg fun h ↦ htype h.1, if_neg fun h ↦ hsdp h.1]
  rw [Found.add, hkey]
  · rfl
  all_goals simp [htype, hsdp]

theorem Found.add_type_eq_ok_iff : f.add (some "type", v) = .ok f' ↔
    f.type = none ∧ ∃ s, v = .str s ∧ f' = { f with type := some s } := by
  rcases f with ⟨_ | t, sdp⟩
  · constructor
    · intro h
      rcases v with _ | _ | _ | (_ | s) | _ | _ <;> cases h
      exact ⟨rfl, s, rfl, rfl⟩
    · rintro ⟨-, s, rfl, rfl⟩
      rfl
  · exact ⟨nofun, nofun⟩

theorem Found.add_sdp_eq_ok_iff : f.add (some "sdp", v) = .ok f' ↔
    f.sdp = none ∧ ∃ s, v = .str s ∧ f' = { f with sdp := some s } := by
  rcases f with ⟨type, _ | t⟩
  · constructor
    · intro h
      rcases v with _ | _ | _ | (_ | s) | _ | _ <;> cases h
      exact ⟨rfl, s, rfl, rfl⟩
    · rintro ⟨-, s, rfl, rfl⟩
      rfl
  · exact ⟨nofun, nofun⟩

theorem Found.add_eq_ok_iff (f f' : Found) (key : String) (v : Json) :
    f.add (some key, v) = .ok f' ↔ f.Takes [(key, v)] f' := by
  rcases f' with ⟨type, sdp⟩
  by_cases htype : key = "type"
  · subst htype
    have hne : "type" ≠ "sdp" := by decide
    simp only [add_type_eq_ok_iff, Found.Takes, valuesOf_self, valuesOf_of_ne hne,
      slotTakes_singleton_iff, slotTakes_nil_iff, Found.mk.injEq, ← and_assoc, exists_and_right]
  · by_cases hsdp : key = "sdp"
    · subst hsdp
      simp only [add_sdp_eq_ok_iff, Found.Takes, valuesOf_self, valuesOf_of_ne htype,
        slotTakes_singleton_iff, slotTakes_nil_iff, Found.mk.injEq]
      grind
    · rw [Found.add_of_other f v htype hsdp, Found.Takes, valuesOf_of_ne htype,
        valuesOf_of_ne hsdp, slotTakes_nil_iff, slotTakes_nil_iff]
      rcases f with ⟨t, s⟩
      rw [Except.ok.injEq, Found.mk.injEq, eq_comm, eq_comm (a := s)]

theorem Found.takes_nil_iff : f.Takes [] f' ↔ f = f' := by
  rcases f with ⟨type, sdp⟩
  rcases f' with ⟨type', sdp'⟩
  change SlotTakes _ [] _ ∧ SlotTakes _ [] _ ↔ _
  rw [slotTakes_nil_iff, slotTakes_nil_iff, Found.mk.injEq, eq_comm, eq_comm (a := sdp)]

theorem Found.takes_cons_iff {m : String × Json} : f.Takes (m :: members) f' ↔
    ∃ f₁, f.Takes [m] f₁ ∧ f₁.Takes members f' := by
  rw [← List.singleton_append, Found.Takes, valuesOf_append, valuesOf_append, slotTakes_append_iff,
    slotTakes_append_iff]
  constructor
  · rintro ⟨⟨type, htype, htype'⟩, sdp, hsdp, hsdp'⟩
    exact ⟨⟨type, sdp⟩, ⟨htype, hsdp⟩, htype', hsdp'⟩
  · rintro ⟨f₁, ⟨htype, hsdp⟩, htype', hsdp'⟩
    exact ⟨⟨f₁.type, htype, htype'⟩, f₁.sdp, hsdp, hsdp'⟩

/-- **Members are noted** by each slot on its own. -/
theorem Found.addAll_eq_ok_iff (f f' : Found) (members : List (String × Json)) :
    f.addAll (named members) = .ok f' ↔ f.Takes members f' := by
  induction members generalizing f with
  | nil => exact (iff_of_eq (Except.ok.injEq f f')).trans takes_nil_iff.symm
  | cons m ms ih =>
    change f.add (some m.1, m.2) >>= (fun f₁ ↦ f₁.addAll (named ms)) = .ok f' ↔ _
    rw [bind_eq_ok_iff, takes_cons_iff]
    simp only [add_eq_ok_iff, ih]

/-! ## The description -/

theorem Found.description_eq_ok_iff : f.description role = .ok d ↔
    f.type = some role.text ∧ ∃ text, f.sdp = some text ∧ Description.ofText? text = some d := by
  rcases f with ⟨_ | type, _ | sdp⟩
  · exact ⟨nofun, nofun⟩
  · exact ⟨nofun, nofun⟩
  · exact ⟨nofun, nofun⟩
  · by_cases htype : type = role.text
    · cases hread : Description.ofText? sdp <;> simp [Found.description, htype, hread]
    · simp [Found.description, htype]

/-- Whether members are those of a description: one type, which is the word of the role, and one
text that is read as the description. -/
def Describes (role : DescriptionRole) (members : List (String × Json)) (d : Description) : Prop :=
  valuesOf "type" members = [.str role.text] ∧
    ∃ text, valuesOf "sdp" members = [.str text] ∧ Description.ofText? text = some d

/-- **Members are opened** exactly when they are those of a description. -/
theorem ofMembers_eq_ok_iff : ofMembers role (named members) = .ok d ↔
    Describes role members d := by
  rw [ofMembers, bind_eq_ok_iff]
  simp only [Found.addAll_eq_ok_iff, Found.description_eq_ok_iff]
  constructor
  · rintro ⟨⟨_, _⟩, ⟨htype, hsdp⟩, ⟨⟩, text, ⟨⟩, hread⟩
    exact ⟨slotTakes_none_iff.mp htype, text, slotTakes_none_iff.mp hsdp, hread⟩
  · rintro ⟨htype, text, hsdp, hread⟩
    exact ⟨⟨some role.text, some text⟩,
      ⟨slotTakes_none_iff.mpr htype, slotTakes_none_iff.mpr hsdp⟩, rfl, text, rfl, hread⟩

theorem describes_congr (h : members.Perm members') :
    Describes role members d ↔ Describes role members' d := by
  simp only [Describes, valuesOf_eq_singleton_congr _ h]

/-! ## Texts -/

/-- Whether a text is an object with given members, blanks around it aside. -/
def Delivers (s : String) (members : List (String × Json)) : Prop :=
  ∃ rest, Json.scanObject? s = some ⟨named members, .closed rest⟩ ∧ Json.skip rest = []

theorem Delivers.ofText_eq (h : Delivers s members) (role : DescriptionRole) :
    ofText role s = ofMembers role (named members) := by
  obtain ⟨rest, hscan, hrest⟩ := h
  rw [ofText, hscan, ofMembers]
  refine congrArg (Except.bind _) (funext fun f ↦ ?_)
  change (f.description role).bind (fun d ↦ if Json.skip rest = [] then .ok d else _) = _
  rcases f.description role with e | d
  · rfl
  · exact if_pos hrest

/-- **An object is opened** exactly when its members are those of a description. -/
theorem Delivers.ofText_eq_ok_iff (h : Delivers s members) :
    ofText role s = .ok d ↔ Describes role members d := by
  rw [h.ofText_eq, ofMembers_eq_ok_iff]

/-- Members that can be noted have keys that are texts. -/
theorem Found.exists_named {ms : List (Option String × Json)} (h : f.addAll ms = .ok f') :
    ∃ members, ms = named members := by
  induction ms generalizing f with
  | nil => exact ⟨[], rfl⟩
  | cons m ms ih =>
    obtain ⟨f₁, hadd, hall⟩ := bind_eq_ok_iff.mp h
    obtain ⟨members, rfl⟩ := ih hall
    rcases m with ⟨_ | key, v⟩
    · cases hadd
    · exact ⟨(key, v) :: members, rfl⟩

/-- A text is opened only if it is an object with such members. -/
theorem ofText_eq_ok_iff :
    ofText role s = .ok d ↔ ∃ members, Delivers s members ∧ Describes role members d := by
  constructor
  · intro h
    have hopened := h
    rw [ofText] at h
    rcases hscan : Json.scanObject? s with _ | ⟨ms, ending⟩
    · rw [hscan] at h
      cases h
    · -- the members were noted, however the object ends
      rw [hscan] at h
      obtain ⟨f, hall, hend⟩ := bind_eq_ok_iff.mp h
      obtain ⟨members, rfl⟩ := Found.exists_named hall
      rcases ending with rest | key | _
      · obtain ⟨d', -, hrest⟩ := bind_eq_ok_iff.mp hend
        have hdelivers : Delivers s members := by
          split at hrest
          · exact ⟨rest, hscan, ‹_›⟩
          · cases hrest
        exact ⟨members, hdelivers, hdelivers.ofText_eq_ok_iff.mp hopened⟩
      · obtain ⟨_, -, hcut⟩ := bind_eq_ok_iff.mp hend
        cases hcut
      · cases hend
  · rintro ⟨members, hdelivers, hdescribes⟩
    exact hdelivers.ofText_eq_ok_iff.mpr hdescribes

/-- **A written object delivers its members.** -/
theorem delivers_text (h : ∀ m ∈ members, m.2.Writable) :
    Delivers (Json.obj members).text members := by
  obtain ⟨cs, hcs, hread⟩ := Json.exists_readMembers fun m hm ↦ (h m hm).reads
  refine ⟨[], ?_, rfl⟩
  rw [Json.scanObject?, show (Json.obj members).text.toList = _ from hcs,
    Json.skip_cons (by decide)]
  have hscan := hread (Json.fuelFor cs) [] (Nat.lt_add_of_pos_right (by decide))
  rw [List.append_nil] at hscan
  exact congrArg some hscan

theorem delivers_toJson (role : DescriptionRole) (d : Description) :
    Delivers (toJson role d).text [("type", .str role.text), ("sdp", .str d.text)] := by
  refine delivers_text fun m hm ↦ ?_
  simp only [List.mem_cons, List.not_mem_nil, or_false] at hm
  rcases hm with rfl | rfl
  · exact .str role.text
  · exact .str d.text

/-- **Descriptions in JSON.** An object is opened in a role exactly when it describes a description
of that role, whatever other members it has, and the description is what its text says; no text but
such an object is opened. The order of its members does not matter, except for which error is
reported. What is written for a description is opened as that description, if its text is read back,
and never in the other role. -/
theorem described_objects_opened :
    (∀ role s members d, Delivers s members → (ofText role s = .ok d ↔ Describes role members d)) ∧
    (∀ role s d, ofText role s = .ok d ↔ ∃ members, Delivers s members ∧ Describes role members d) ∧
    (∀ role s s' members members', Delivers s members → Delivers s' members' →
      members.Perm members' → (ofText role s).toOption = (ofText role s').toOption) ∧
    (∀ role d, Description.ofText? d.text = some d → ofText role (toJson role d).text = .ok d) ∧
    ∀ role role' d, role' ≠ role →
      ofText role' (toJson role d).text = .error (.otherType role' role.text) := by
  refine ⟨fun role s members d h ↦ h.ofText_eq_ok_iff, fun role s d ↦ ofText_eq_ok_iff, ?_, ?_, ?_⟩
  · intro role s s' members members' h h' hperm
    refine Option.ext fun d ↦ ?_
    rw [toOption_eq_some_iff, toOption_eq_some_iff, h.ofText_eq_ok_iff, h'.ofText_eq_ok_iff,
      describes_congr hperm]
  · intro role d hread
    rw [(delivers_toJson role d).ofText_eq_ok_iff]
    exact ⟨rfl, d.text, rfl, hread⟩
  · intro role role' d hrole
    rw [(delivers_toJson role d).ofText_eq]
    have htype : role.text ≠ role'.text := fun h ↦
      hrole (DescriptionRole.text_injective h.symm)
    exact if_pos htype

/-- An offer without sections. -/
def bare : Description := { session := { id := 4, version := 2 }, sections := [] }

/-- The members of an offer among others, some of them repeated. -/
def mingled : List (String × Json) :=
  [("sdp", .str bare.text), ("extra", .null), ("type", .str "offer"), ("extra", .str "answer")]

theorem mingled_offer_opened :
    Delivers (Json.obj mingled).text mingled ∧ ofText .offer (Json.obj mingled).text = .ok bare ∧
      (ofText .offer (Json.obj mingled.reverse).text).toOption = some bare ∧
      ofText .offer (toJson .offer bare).text = .ok bare ∧
      ofText .answer (toJson .offer bare).text = .error (.otherType .answer "offer") := by
  obtain ⟨hopened, -, hperm, hwritten, hother⟩ := described_objects_opened
  have hread : Description.ofText? bare.text = some bare := by decide +kernel
  have hwritable : ∀ m ∈ mingled, m.2.Writable := by
    intro m hm
    simp only [mingled, List.mem_cons, List.not_mem_nil, or_false] at hm
    rcases hm with rfl | rfl | rfl | rfl
    · exact .str _
    · exact .null
    · exact .str _
    · exact .str _
  have hdelivers := delivers_text hwritable
  have hreverse : Delivers (Json.obj mingled.reverse).text mingled.reverse :=
    delivers_text fun m hm ↦ hwritable m (List.mem_reverse.mp hm)
  have hoffer := (hopened .offer _ mingled bare hdelivers).mpr ⟨rfl, bare.text, rfl, hread⟩
  refine ⟨hdelivers, hoffer, ?_, hwritten .offer bare hread, hother .offer .answer bare nofun⟩
  rw [← hperm .offer _ _ _ _ hdelivers hreverse mingled.reverse_perm.symm, hoffer]
  rfl

end Envelope

end OfferAnswer
