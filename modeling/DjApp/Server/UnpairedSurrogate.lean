import DjApp.Library.Pattern
import DjApp.Library.SurrogatePairs
import DjApp.Server.FrameBounds

/-! The expression that stands in for `isWellFormed` where a string has no such method, and the text
of the frames that relay the names it let pass. -/

set_option autoImplicit false

namespace DjApp.Server

open Library

section Pattern

def isHighUnit (unit : UInt16) : Bool := 0xD800 ≤ unit.toNat && unit.toNat ≤ 0xDBFF

def isLowUnit (unit : UInt16) : Bool := 0xDC00 ≤ unit.toNat && unit.toNat ≤ 0xDFFF

/-- Without the flag `u` an expression reads code units. -/
def unpairedSurrogate : Pattern UInt16 :=
  .choice
    (.sequence (.oneOf isHighUnit) (.unlessAhead (.oneOf isLowUnit)))
    (.sequence (.choice (.oneOf fun unit => !isHighUnit unit) .start) (.oneOf isLowUnit))

/-- Whether strings have the method is up to the runtime. -/
def isWellFormedString (hasMethod : Bool) (units : JsString) : Bool :=
  if hasMethod then Utf16.isWellFormed units else !unpairedSurrogate.test units

theorem isHighUnit_eq : isHighUnit = Utf16.isHighSurrogate := by
  funext unit
  simp [isHighUnit, Utf16.isHighSurrogate, Nat.lt_succ_iff]

theorem isLowUnit_eq : isLowUnit = Utf16.isLowSurrogate := by
  funext unit
  simp [isLowUnit, Utf16.isLowSurrogate, Nat.lt_succ_iff]

variable {units : JsString} {position stop : ℕ}

/-- The first alternative: a high surrogate that no low one follows. -/
theorem mem_ends_loneHigh :
    stop ∈ (Pattern.sequence (.oneOf isHighUnit) (.unlessAhead (.oneOf isLowUnit))).ends units
        position ↔
      stop = position + 1 ∧
        (∃ high, units[position]? = some high ∧ Utf16.isHighSurrogate high = true) ∧
        ¬ ∃ low, units[position + 1]? = some low ∧ Utf16.isLowSurrogate low = true := by
  simp only [Pattern.mem_ends_sequence, Pattern.mem_ends_oneOf, Pattern.mem_ends_unlessAhead,
    isHighUnit_eq, isLowUnit_eq]
  constructor
  · rintro ⟨middle, ⟨rfl, high⟩, rfl, alone⟩
    exact ⟨rfl, high, fun low => alone _ ⟨rfl, low⟩⟩
  · rintro ⟨rfl, high, alone⟩
    exact ⟨position + 1, ⟨rfl, high⟩, rfl, fun _ ahead => alone ahead.2⟩

/-- The second alternative, which starts one unit before the low surrogate, if there is one. -/
theorem mem_ends_loneLow :
    stop ∈ (Pattern.sequence (.choice (.oneOf fun unit => !isHighUnit unit) .start)
        (.oneOf isLowUnit)).ends units position ↔
      (∃ index, stop = index + 1 ∧
        (∃ low, units[index]? = some low ∧ Utf16.isLowSurrogate low = true) ∧
        (index = position + 1 ∧ (∃ unit, units[position]? = some unit ∧
            Utf16.isHighSurrogate unit = false) ∨
          index = position ∧ position = 0)) := by
  simp only [Pattern.mem_ends_sequence, Pattern.mem_ends_choice, Pattern.mem_ends_oneOf,
    Pattern.mem_ends_start, isHighUnit_eq, isLowUnit_eq, Bool.not_eq_true']
  constructor
  · rintro ⟨index, before, rfl, low⟩
    exact ⟨index, rfl, low, before⟩
  · rintro ⟨index, rfl, low, before⟩
    exact ⟨index, before, rfl, low⟩

theorem not_wellFormed_of_match (found : unpairedSurrogate.test units = true) :
    ¬ Utf16.WellFormed units := by
  intro wellFormed
  obtain ⟨position, _, stop, member⟩ := Pattern.test_iff.mp found
  rcases Pattern.mem_ends_choice.mp member with loneHigh | loneLow
  · obtain ⟨_, ⟨high, here, isHigh⟩, alone⟩ := mem_ends_loneHigh.mp loneHigh
    exact alone (wellFormed.followed position high here isHigh)
  · obtain ⟨index, _, ⟨low, here, isLow⟩, before⟩ := mem_ends_loneLow.mp loneLow
    obtain ⟨earlier, high, next, preceding, isHigh⟩ := wellFormed.preceded index low here isLow
    rcases before with ⟨rfl, unit, first, other⟩ | ⟨rfl, rfl⟩
    · obtain rfl : earlier = position := Nat.succ.inj next
      obtain rfl : high = unit := Option.some.inj (preceding.symm.trans first)
      rw [isHigh] at other
      cases other
    · exact absurd next (Nat.succ_ne_zero earlier)

theorem wellFormed_of_no_match
    (unmatched : ∀ position ≤ units.length, ∀ stop, stop ∉ unpairedSurrogate.ends units position) :
    Utf16.WellFormed units := by
  constructor
  case followed =>
    intro index high here isHigh
    have within := (List.getElem?_eq_some_iff.mp here).1
    by_contra alone
    apply unmatched index within.le (index + 1)
    exact Pattern.mem_ends_choice.mpr (.inl (mem_ends_loneHigh.mpr ⟨rfl, ⟨high, here, isHigh⟩, alone⟩))
  case preceded =>
    intro index low here isLow
    have within := (List.getElem?_eq_some_iff.mp here).1
    cases index with
    | zero =>
        exfalso
        apply unmatched 0 (Nat.zero_le _) 1
        refine Pattern.mem_ends_choice.mpr (.inr (mem_ends_loneLow.mpr ?_))
        exact ⟨0, rfl, ⟨low, here, isLow⟩, .inr ⟨rfl, rfl⟩⟩
    | succ before =>
        have preceding := List.getElem?_eq_getElem (Nat.lt_of_succ_lt within)
        cases isHigh : Utf16.isHighSurrogate units[before] with
        | true => exact ⟨before, units[before], rfl, preceding, isHigh⟩
        | false =>
            -- The match begins with the unit before, whatever else that is.
            exfalso
            apply unmatched before (Nat.lt_of_succ_lt within).le (before + 2)
            refine Pattern.mem_ends_choice.mpr (.inr (mem_ends_loneLow.mpr ?_))
            exact ⟨before + 1, rfl, ⟨low, here, isLow⟩, .inl ⟨rfl, units[before], preceding, isHigh⟩⟩

theorem test_unpairedSurrogate_iff (units : JsString) :
    unpairedSurrogate.test units = true ↔ ¬ Utf16.WellFormed units := by
  constructor
  · exact not_wellFormed_of_match
  · intro broken
    by_contra missed
    apply broken
    apply wellFormed_of_no_match
    intro position within stop member
    exact missed (Pattern.test_iff.mpr ⟨position, within, stop, member⟩)

/-- It makes no difference whether there is the method. -/
theorem isWellFormedString_eq (hasMethod : Bool) (units : JsString) :
    isWellFormedString hasMethod units = Utf16.isWellFormed units := by
  cases hasMethod with
  | true => rfl
  | false =>
      rw [isWellFormedString, if_neg Bool.false_ne_true, Bool.eq_iff_iff, Bool.not_eq_true',
        ← Bool.not_eq_true, test_unpairedSurrogate_iff, not_not, Utf16.isWellFormed_iff]

end Pattern

section Text

/-- No string of a value, be it a key, has a surrogate without its partner. -/
def WellFormedStrings (value : JsValue) : Prop :=
  ∀ units ∈ value.strings, Utf16.WellFormed units

/-- How a frame becomes bytes. `JSON.stringify` brings no surrogate of its own into the text, and
the text of characters goes out in UTF-8. -/
structure SendsText (stringify : JsValue → JsString) (send : JsString → ByteArray) : Prop where
  relays : ∀ value, WellFormedStrings value → Utf16.WellFormed (stringify value)
  encodes : ∀ text : List Char, send (Utf16.encode text) = text.utf8Encode

/-- A `stringify` that escapes what has no partner, and a decoder that replaces it. -/
theorem sendsText_stringify :
    SendsText (fun value => Utf16.encode (Json.stringify value))
      (fun units => (Utf16.decode units).utf8Encode) where
  relays _ _ := Utf16.wellFormed_encode _
  encodes text := by rw [Utf16.decode_encode]

theorem wellFormedStrings_str {units : JsString} (wellFormed : Utf16.WellFormed units) :
    WellFormedStrings (.str units) := by
  intro other member
  rw [List.mem_singleton.mp member]
  exact wellFormed

theorem wellFormedStrings_text (value : String) : WellFormedStrings (text value) :=
  wellFormedStrings_str (Utf16.wellFormed_encode _)

theorem wellFormedStrings_of_none {value : JsValue} (none : value.strings = []) :
    WellFormedStrings value := by
  intro units member
  rw [none] at member
  exact absurd member List.not_mem_nil

theorem wellFormedStrings_arr {items : List JsValue}
    (each : ∀ item ∈ items, WellFormedStrings item) : WellFormedStrings (.arr items) := by
  intro units member
  obtain ⟨item, included, inside⟩ := Json.mem_itemStrings.mp member
  exact each item included units inside

theorem wellFormedStrings_object {fields : List (String × JsValue)}
    (each : ∀ field ∈ fields, WellFormedStrings field.2) : WellFormedStrings (object fields) := by
  intro units member
  obtain ⟨field, included, inside⟩ := Json.mem_fieldStrings.mp member
  obtain ⟨source, listed, rfl⟩ := List.mem_map.mp included
  rcases inside with key | value
  · rw [key]
    exact Utf16.wellFormed_encode _
  · exact each source listed units value

theorem wellFormed_of_isValidTrackId {id : JsString} (valid : isValidTrackId id = true) :
    Utf16.WellFormed id := by
  simp only [isValidTrackId, matchesTrackIdPattern, Bool.and_eq_true, List.all_eq_true] at valid
  apply Utf16.WellFormed.of_plain
  intro unit member
  have plain := isTrackIdUnit_plain (valid.1.2 unit member)
  rw [Bool.eq_false_iff, ne_eq, Utf16.isSurrogate_iff]
  omega

theorem wellFormedStrings_trackIdToJson {trackId : Option JsString}
    (valid : ∀ id, trackId = some id → isValidTrackId id = true) :
    WellFormedStrings (trackIdToJson trackId) := by
  cases trackId with
  | none => exact wellFormedStrings_of_none rfl
  | some id => exact wellFormedStrings_str (wellFormed_of_isValidTrackId (valid id rfl))

theorem wellFormedStrings_loopToJson (loop : Option Loop) :
    WellFormedStrings (loopToJson loop) := by
  cases loop with
  | none => exact wellFormedStrings_of_none rfl
  | some loop =>
      apply wellFormedStrings_object
      simp only [List.forall_mem_cons]
      exact ⟨wellFormedStrings_of_none rfl, wellFormedStrings_of_none rfl, List.forall_mem_nil _⟩

theorem wellFormedStrings_deckToJson {deck : Deck} (valid : deck.Valid) :
    WellFormedStrings (deckToJson deck) := by
  apply wellFormedStrings_object
  simp only [List.forall_mem_cons]
  exact ⟨wellFormedStrings_trackIdToJson valid.trackId, wellFormedStrings_of_none rfl,
    wellFormedStrings_of_none rfl, wellFormedStrings_of_none rfl, wellFormedStrings_of_none rfl,
    wellFormedStrings_of_none rfl, wellFormedStrings_loopToJson _, wellFormedStrings_of_none rfl,
    List.forall_mem_nil _⟩

theorem wellFormedStrings_decksToJson {decks : List (DeckId × Deck)} (valid : DecksValid decks) :
    WellFormedStrings (decksToJson decks) := by
  apply wellFormedStrings_object
  intro field member
  obtain ⟨deck, listed, rfl⟩ := List.mem_map.mp member
  exact wellFormedStrings_deckToJson (valid.valid deck listed)

theorem wellFormedStrings_changesFields {changes : Changes} (valid : changes.Valid) :
    ∀ field ∈ changesFields changes, WellFormedStrings field.2 := by
  intro field member
  simp only [changesFields, List.mem_append, List.mem_map, Option.mem_toList] at member
  rcases member with ((((((⟨trackId, found, rfl⟩ | ⟨playing, _, rfl⟩) | ⟨repeats, _, rfl⟩) |
    ⟨position, _, rfl⟩) | ⟨gain, _, rfl⟩) | ⟨rate, _, rfl⟩) | ⟨pitch, _, rfl⟩) | ⟨loop, _, rfl⟩
  · exact wellFormedStrings_trackIdToJson fun id same => valid.trackId id (same ▸ found)
  · exact wellFormedStrings_of_none rfl
  · exact wellFormedStrings_of_none rfl
  · exact wellFormedStrings_of_none rfl
  · exact wellFormedStrings_of_none rfl
  · exact wellFormedStrings_of_none rfl
  · exact wellFormedStrings_of_none rfl
  · exact wellFormedStrings_loopToJson loop

theorem ValidName.wellFormedStrings {name : JsString} (valid : ValidName name) :
    WellFormedStrings (.str name) :=
  wellFormedStrings_str ((Utf16.isWellFormed_iff name).mp valid.wellFormed)

theorem wellFormedStrings_peers {peers : List Peer} (named : ∀ peer ∈ peers, ValidName peer.name) :
    WellFormedStrings (.arr (peers.map peerToJson)) := by
  apply wellFormedStrings_arr
  intro item member
  obtain ⟨peer, listed, rfl⟩ := List.mem_map.mp member
  apply wellFormedStrings_object
  simp only [List.forall_mem_cons]
  exact ⟨wellFormedStrings_text _, (named peer listed).wellFormedStrings, wellFormedStrings_text _,
    List.forall_mem_nil _⟩

theorem Frame.Valid.wellFormedStrings {config : RoomConfig} {frame : Frame}
    (valid : frame.Valid config) : WellFormedStrings frame.asJson := by
  cases frame with
  | welcome clientId role serverSeq decks peers =>
      obtain ⟨_, decks, peers⟩ := valid
      apply wellFormedStrings_object
      simp only [List.forall_mem_cons]
      refine ⟨wellFormedStrings_text _, wellFormedStrings_text _, wellFormedStrings_text _,
        wellFormedStrings_of_none rfl, ?_, wellFormedStrings_peers peers.named,
        wellFormedStrings_text _, List.forall_mem_nil _⟩
      apply wellFormedStrings_object
      simp only [List.forall_mem_cons]
      exact ⟨wellFormedStrings_decksToJson decks, List.forall_mem_nil _⟩
  | peerJoined clientId name role =>
      apply wellFormedStrings_object
      simp only [List.forall_mem_cons]
      exact ⟨wellFormedStrings_text _, wellFormedStrings_text _, valid.2.wellFormedStrings,
        wellFormedStrings_text _, List.forall_mem_nil _⟩
  | peerLeft clientId =>
      apply wellFormedStrings_object
      simp only [List.forall_mem_cons]
      exact ⟨wellFormedStrings_text _, wellFormedStrings_text _, List.forall_mem_nil _⟩
  | roleChanged clientId role | error code message =>
      apply wellFormedStrings_object
      simp only [List.forall_mem_cons]
      exact ⟨wellFormedStrings_text _, wellFormedStrings_text _, wellFormedStrings_text _,
        List.forall_mem_nil _⟩
  | delta serverSeq sourceClientId deck changes =>
      apply wellFormedStrings_object
      simp only [List.forall_mem_cons]
      exact ⟨wellFormedStrings_text _, wellFormedStrings_of_none rfl, wellFormedStrings_text _,
        wellFormedStrings_text _, wellFormedStrings_object (wellFormedStrings_changesFields valid),
        List.forall_mem_nil _⟩
  | snapshot serverSeq decks =>
      apply wellFormedStrings_object
      simp only [List.forall_mem_cons]
      exact ⟨wellFormedStrings_text _, wellFormedStrings_of_none rfl,
        wellFormedStrings_decksToJson valid, List.forall_mem_nil _⟩

/-- Where every string is well formed, what goes out is UTF-8. -/
theorem SendsText.isValidUTF8 {stringify : JsValue → JsString} {send : JsString → ByteArray}
    (sends : SendsText stringify send) {value : JsValue} (wellFormed : WellFormedStrings value) :
    (send (stringify value)).IsValidUTF8 := by
  rw [← (sends.relays value wellFormed).encode_decode, sends.encodes]
  exact ByteArray.isValidUTF8_utf8Encode

/-- The expression finds exactly the strings that are not well formed, so that a name is judged
the same with the method and without it; and no frame of a room's run, with all the names it
relays, goes out as anything but UTF-8. -/
theorem unpairedSurrogate_exact {stringify : JsValue → JsString} {send : JsString → ByteArray}
    (sends : SendsText stringify send) :
    (∀ units, unpairedSurrogate.test units = true ↔ ¬ Utf16.WellFormed units) ∧
      (∀ hasMethod units, isWellFormedString hasMethod units = true ↔ Utf16.WellFormed units) ∧
      ∀ config calls, ∀ row ∈ roomTrace config calls, ∀ conn frame,
        .send conn frame ∈ row.output.effects → (send (stringify frame.asJson)).IsValidUTF8 := by
  refine ⟨test_unpairedSurrogate_iff, fun hasMethod units => ?_, ?_⟩
  · rw [isWellFormedString_eq, Utf16.isWellFormed_iff]
  · intro config calls row member conn frame sent
    exact sends.isValidUTF8 (roomTrace_frames member sent).1.wellFormedStrings

/-- The second member has a name beyond the first plane, of which the first one is told. -/
theorem unpairedSurrogate_exact_twoMembers :
    let config : RoomConfig := { roomCode := js "sixteen-letters-", maxClients := 8 }
    let calls := [Call.message 0 (helloMessage 2 (js "Ana") config.roomCode) fun _ => ⟨7⟩,
      Call.message 1 (helloMessage 2 [0xD83C, 0xDFA7] config.roomCode) fun _ => ⟨8⟩]
    let frame : Frame := .peerJoined ⟨8⟩ [0xD83C, 0xDFA7] .observer
    (∃ row ∈ roomTrace config calls, .send 0 frame ∈ row.output.effects) ∧
      (Utf16.decode (Utf16.encode (Json.stringify frame.asJson))).utf8Encode.IsValidUTF8 := by
  intro config calls frame
  have told : ∃ row ∈ roomTrace config calls, .send 0 frame ∈ row.output.effects :=
    ⟨_, List.mem_cons_of_mem _ List.mem_cons_self, by decide +kernel⟩
  refine ⟨told, ?_⟩
  obtain ⟨row, member, sent⟩ := told
  exact (unpairedSurrogate_exact sendsText_stringify).2.2 config calls row member 0 frame sent

-- Surrogates in a row, where the alternatives overlap, and a pair.
example : [[0xD83C, 0xDFA7, 0xDFA7], [0xDFA7, 0xDFA7], [0xD83C, 0xD83C, 0xDFA7],
    [0xD83C, 0xDFA7]].map (unpairedSurrogate.test ·) = [true, true, true, false] := by
  decide

end Text

end DjApp.Server
