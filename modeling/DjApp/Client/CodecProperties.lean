import DjApp.Client.PublishedDeltas

/-! What the codec keeps of states and deltas, and which messages it takes for a delta of
another deck than the one they name. -/

set_option autoImplicit false

namespace DjApp.Client

open Library

/-- The fields of a delta are those of an object: a field is absent exactly where its property
is, and a property that is there has been parsed. -/
structure StateDelta.ReadFrom (delta : StateDelta) (fields : Properties) : Prop where
  trackId : parseProperty fields "trackId" parseTrackId = .ok delta.trackId
  playing : parseProperty fields "playing" parseBool = .ok delta.playing
  positionSeconds : parseProperty fields "positionSeconds" (parseFinite "positionSeconds") =
    .ok delta.positionSeconds
  gain : parseProperty fields "gain" (parseFiniteFloat "gain") = .ok delta.gain
  playbackRate : parseProperty fields "playbackRate" (parseFiniteFloat "playbackRate") =
    .ok delta.playbackRate
  pitchOffsetSemitones : parseProperty fields "pitchOffsetSemitones"
    (parseFiniteFloat "pitchOffsetSemitones") = .ok delta.pitchOffsetSemitones
  loop : parseProperty fields "loop" parseLoopValue = .ok delta.loop
  repeats : parseProperty fields "repeat" parseBool = .ok delta.repeats

theorem parseFields_ok_iff {fields : Properties} {deck : DeckId} {delta : StateDelta} :
    parseFields fields deck = .ok delta ↔ delta.deck = deck ∧ delta.ReadFrom fields := by
  simp only [parseFields, bind_eq_ok_iff]
  constructor
  · rintro ⟨_, trackId, _, playing, _, position, _, gain, _, rate, _, pitch, _, loop, _, repeats,
      parsed⟩
    cases parsed
    exact ⟨rfl, trackId, playing, position, gain, rate, pitch, loop, repeats⟩
  · rintro ⟨rfl, read⟩
    exact ⟨_, read.trackId, _, read.playing, _, read.positionSeconds, _, read.gain,
      _, read.playbackRate, _, read.pitchOffsetSemitones, _, read.loop, _, read.repeats, rfl⟩

theorem parseProperty_congr {Value : Type} {fields others : Properties} {name : String}
    {parse : Var → Result Value} (same : fields.lookup name = others.lookup name) :
    parseProperty fields name parse = parseProperty others name parse := by
  unfold parseProperty
  rw [same]

theorem StateDelta.ReadFrom.of_same {delta : StateDelta} {fields others : Properties}
    (read : delta.ReadFrom others)
    (same : ∀ key ∈ stateKeys, fields.lookup key = others.lookup key) : delta.ReadFrom fields where
  trackId := (parseProperty_congr (same _ (by simp [stateKeys]))).trans read.trackId
  playing := (parseProperty_congr (same _ (by simp [stateKeys]))).trans read.playing
  positionSeconds := (parseProperty_congr (same _ (by simp [stateKeys]))).trans
    read.positionSeconds
  gain := (parseProperty_congr (same _ (by simp [stateKeys]))).trans read.gain
  playbackRate := (parseProperty_congr (same _ (by simp [stateKeys]))).trans read.playbackRate
  pitchOffsetSemitones := (parseProperty_congr (same _ (by simp [stateKeys]))).trans
    read.pitchOffsetSemitones
  loop := (parseProperty_congr (same _ (by simp [stateKeys]))).trans read.loop
  repeats := (parseProperty_congr (same _ (by simp [stateKeys]))).trans read.repeats

theorem deckFromString_eq_some_iff {s : String} {deck : DeckId} :
    deckFromString s = some deck ↔ s = deck.text := by
  constructor
  · intro parsed
    unfold deckFromString at parsed
    split at parsed
    · cases parsed
      assumption
    · split at parsed
      · cases parsed
        assumption
      · cases parsed
  · intro same
    rw [same]
    exact deckFromString_text deck

theorem stateDeltaFromVar_ok_iff {fields : Properties} {delta : StateDelta} :
    stateDeltaFromVar (.obj fields) = .ok delta ↔
      hasOnlyKnownKeys fields ("deck" :: stateKeys) = true ∧
        fields.lookup "deck" = some (.str delta.deck.text) ∧ delta.ReadFrom fields := by
  simp only [stateDeltaFromVar]
  cases known : hasOnlyKnownKeys fields ("deck" :: stateKeys) with
  | false => simp
  | true =>
      simp only [Bool.not_true, Bool.false_eq_true, ↓reduceIte, true_and]
      cases found : fields.lookup "deck" with
      | none => simp
      | some value =>
          cases value with
          | str s =>
              simp only [Option.some.injEq, Json.str.injEq]
              cases named : deckFromString s with
              | none =>
                  simp only [reduceCtorEq, false_iff, not_and]
                  intro same
                  rw [deckFromString_eq_some_iff.mpr same] at named
                  cases named
              | some deck =>
                  simp only [parseFields_ok_iff]
                  rw [← deckFromString_eq_some_iff, named, Option.some.injEq, eq_comm]
          | null | bool | num | arr | obj => simp

/-- The two levels of a message meet in one object, where the inner ones win. -/
theorem parseDeltaMessage_ok_iff {fields : Properties} {delta : StateDelta} :
    parseDeltaMessage (.obj fields) = .ok delta ↔
      ∃ deck changes, fields.lookup "deck" = some deck ∧
        getProperty fields "changes" = .obj changes ∧
        hasOnlyKnownKeys changes ("deck" :: stateKeys) = true ∧
        (changes.lookup "deck").getD deck = .str delta.deck.text ∧ delta.ReadFrom changes := by
  simp only [parseDeltaMessage]
  cases found : fields.lookup "deck" with
  | none => simp
  | some deck =>
      cases inner : getProperty fields "changes" with
      | obj changes =>
          have lookups : ∀ key ∈ stateKeys, (("deck", (changes.lookup "deck").getD deck) ::
              changes.filter (·.1 != "deck")).lookup key = changes.lookup key := by
            intro key member
            have other : key ≠ "deck" := by
              rintro rfl
              exact deck_not_mem_stateKeys member
            rw [List.lookup_cons, beq_false_of_ne other]
            exact AssocList.lookup_filter_ne other changes
          have known : hasOnlyKnownKeys (("deck", (changes.lookup "deck").getD deck) ::
              changes.filter (·.1 != "deck")) ("deck" :: stateKeys) =
              hasOnlyKnownKeys changes ("deck" :: stateKeys) := by
            rw [Bool.eq_iff_iff]
            simp only [hasOnlyKnownKeys, List.all_eq_true, List.forall_mem_cons,
              List.contains_iff_mem, List.mem_filter, bne_iff_ne, and_imp]
            constructor
            · intro listed field member
              by_cases named : field.1 = "deck"
              · rw [named]
                exact List.mem_cons_self
              · exact listed.2 field member named
            · exact fun listed => ⟨List.mem_cons_self, fun field member _ => listed field member⟩
          simp only [stateDeltaFromVar_ok_iff, known, List.lookup_cons_self, Option.some.injEq,
            Json.obj.injEq, exists_and_left, exists_eq_left']
          refine and_congr_right fun _ => and_congr_right fun _ => ?_
          exact ⟨fun read => read.of_same fun key member => (lookups key member).symm,
            fun read => read.of_same lookups⟩
      | null | bool | num | str | arr => simp

def fieldTakes (key : String) (v : Var) : Prop :=
  match key with
  | "trackId" => ∃ trackId, parseTrackId v = .ok trackId
  | "playing" | "repeat" => ∃ value, parseBool v = .ok value
  | "positionSeconds" => ∃ value, parseFinite key v = .ok value
  | "gain" | "playbackRate" | "pitchOffsetSemitones" => ∃ value, parseFiniteFloat key v = .ok value
  | "loop" => ∃ loop, parseLoopValue v = .ok loop
  | _ => False

theorem exists_parseProperty_iff {Value : Type} {fields : Properties} {name : String}
    {parse : Var → Result Value} :
    (∃ value, parseProperty fields name parse = .ok value) ↔
      ∀ v, fields.lookup name = some v → ∃ value, parse v = .ok value := by
  unfold parseProperty
  cases fields.lookup name with
  | none => simp
  | some v => cases parsed : parse v <;> simp [parsed, Except.map]

theorem exists_readFrom_iff {fields : Properties} (deck : DeckId) :
    (∃ delta : StateDelta, delta.deck = deck ∧ delta.ReadFrom fields) ↔
      ∀ key ∈ stateKeys, ∀ v, fields.lookup key = some v → fieldTakes key v := by
  simp only [stateKeys, List.forall_mem_cons, List.not_mem_nil, false_imp_iff, implies_true,
    and_true, fieldTakes, ← exists_parseProperty_iff]
  constructor
  · rintro ⟨delta, _, read⟩
    exact ⟨⟨_, read.trackId⟩, ⟨_, read.playing⟩, ⟨_, read.positionSeconds⟩, ⟨_, read.gain⟩,
      ⟨_, read.playbackRate⟩, ⟨_, read.pitchOffsetSemitones⟩, ⟨_, read.loop⟩, ⟨_, read.repeats⟩⟩
  · rintro ⟨⟨_, trackId⟩, ⟨_, playing⟩, ⟨_, position⟩, ⟨_, gain⟩, ⟨_, rate⟩, ⟨_, pitch⟩,
      ⟨_, loop⟩, ⟨_, repeats⟩⟩
    exact ⟨⟨deck, _, _, _, _, _, _, _, _⟩, rfl, trackId, playing, position, gain, rate, pitch, loop,
      repeats⟩

/-- A delta says what its message says: of the deck the message names, and with the fields of
`changes`, all of which are fields of a delta. -/
def StateDelta.FaithfulTo (delta : StateDelta) (message : Var) : Prop :=
  ∃ fields changes, message = .obj fields ∧ getProperty fields "changes" = .obj changes ∧
    fields.lookup "deck" = some (.str delta.deck.text) ∧
    (∀ field ∈ changes, field.1 ∈ stateKeys) ∧ delta.ReadFrom changes

/-- The `changes` of a message name a deck of their own, and have nothing else amiss. -/
def OverridesDeck (message : Var) : Prop :=
  ∃ fields changes, message = .obj fields ∧ hasProperty fields "deck" = true ∧
    getProperty fields "changes" = .obj changes ∧
    (∃ deck : DeckId, changes.lookup "deck" = some (.str deck.text)) ∧
    (∀ field ∈ changes, field.1 ≠ "deck" → field.1 ∈ stateKeys) ∧
    ∀ key ∈ stateKeys, ∀ v, changes.lookup key = some v → fieldTakes key v

theorem hasOnlyKnownKeys_deck_iff {changes : Properties} :
    hasOnlyKnownKeys changes ("deck" :: stateKeys) = true ↔
      ∀ field ∈ changes, field.1 ≠ "deck" → field.1 ∈ stateKeys := by
  simp only [hasOnlyKnownKeys, List.all_eq_true, List.contains_iff_mem, List.mem_cons]
  exact forall₂_congr fun _ _ => or_iff_not_imp_left

/-- Every delta taken from a message says what the message says, unless `changes` has a deck of
its own: then none does. -/
theorem parseDeltaMessage_strict_iff (message : Var) :
    (∀ delta, parseDeltaMessage message = .ok delta → delta.FaithfulTo message) ↔
      ¬ OverridesDeck message := by
  constructor
  · rintro strict ⟨fields, changes, rfl, named, inner, ⟨deck, own⟩, known, taken⟩
    obtain ⟨outer, found⟩ := Option.isSome_iff_exists.mp named
    obtain ⟨delta, rfl, read⟩ := (exists_readFrom_iff deck).mpr taken
    have parsed : parseDeltaMessage (.obj fields) = .ok delta :=
      parseDeltaMessage_ok_iff.mpr ⟨outer, changes, found, inner,
        hasOnlyKnownKeys_deck_iff.mpr known, by rw [own]; rfl, read⟩
    obtain ⟨_, _, same, again, _, listed, _⟩ := strict delta parsed
    cases same
    cases inner.symm.trans again
    have present := listed _ (AssocList.mem_of_lookup own)
    exact deck_not_mem_stateKeys present
  · intro plain delta parsed
    cases message with
    | obj fields =>
        obtain ⟨deck, changes, found, inner, known, named, read⟩ :=
          parseDeltaMessage_ok_iff.mp parsed
        have others := hasOnlyKnownKeys_deck_iff.mp known
        cases own : changes.lookup "deck" with
        | none =>
            rw [own] at named
            refine ⟨fields, changes, rfl, inner, ?_, ?_, read⟩
            · rw [found]
              exact congrArg some named
            · intro field member
              apply others field member
              intro same
              rw [AssocList.lookup_eq_none_iff_not_mem_keys] at own
              exact own (List.mem_map.mpr ⟨field, member, same⟩)
        | some value =>
            rw [own] at named
            have property : hasProperty fields "deck" = true := by
              rw [hasProperty, found]
              rfl
            refine absurd ⟨fields, changes, rfl, property, inner, ⟨delta.deck, ?_⟩, others, ?_⟩ plain
            · rw [own]
              exact congrArg some named
            · exact (exists_readFrom_iff delta.deck).mp ⟨delta, rfl, read⟩
    | null | bool | num | str | arr => cases parsed

/-- A message for deck A that stops deck B. -/
def stopOther : Var :=
  .obj [("type", .str "delta"), ("deck", .str "A"),
    ("changes", .obj [("deck", .str "B"), ("playing", .bool false)])]

theorem stopOther_parsed :
    parseDeltaMessage stopOther = .ok { deck := .B, playing := some false } := by
  rfl

theorem deck_overridden :
    ¬ ∀ message delta, parseDeltaMessage message = .ok delta → delta.FaithfulTo message := by
  intro strict
  obtain ⟨fields, _, same, _, named, _⟩ := strict stopOther _ stopOther_parsed
  cases same
  have text : Json.str "A" = Json.str "B" := Option.some.inj named
  simp at text

section RoundTrip

/-- A float that is no infinity. -/
def Single.Finite (value : Single) : Prop := |value.value| < 2 ^ 128

instance (value : Single) : Decidable value.Finite :=
  inferInstanceAs (Decidable (|value.value| < 2 ^ 128))

def LoopPoints.Ordered (points : LoopPoints) : Prop := points.inSeconds < points.outSeconds

instance (points : LoopPoints) : Decidable points.Ordered :=
  inferInstanceAs (Decidable (points.inSeconds < points.outSeconds))

/-- No track, or one with a valid id. -/
def TrackIdEncodes (trackId : String) : Prop := trackId = "" ∨ isValidTrackId trackId = true

structure PlaybackState.Encodes (state : PlaybackState) : Prop where
  trackId : TrackIdEncodes state.trackId
  gain : state.gain.Finite
  playbackRate : state.playbackRate.Finite
  pitchOffsetSemitones : state.pitchOffsetSemitones.Finite
  loop : ∀ points, state.loop = some points → points.Ordered

/-- The same of the fields that a delta has. -/
structure StateDelta.Encodes (delta : StateDelta) : Prop where
  trackId : ∀ trackId, delta.trackId = some trackId → TrackIdEncodes trackId
  gain : ∀ value, delta.gain = some value → value.Finite
  playbackRate : ∀ value, delta.playbackRate = some value → value.Finite
  pitchOffsetSemitones : ∀ value, delta.pitchOffsetSemitones = some value → value.Finite
  loop : ∀ points, delta.loop = some (some points) → points.Ordered

theorem parseTrackId_trackIdToVar {trackId : String} (encodes : TrackIdEncodes trackId) :
    parseTrackId (trackIdToVar trackId) = .ok trackId := by
  unfold trackIdToVar
  split
  · rename_i empty
    rw [empty]
    rfl
  · rename_i some
    have valid := encodes.resolve_left some
    simp only [parseTrackId, valid, ↓reduceIte]

theorem parseTrackId_encodes {v : Var} {trackId : String} (parsed : parseTrackId v = .ok trackId) :
    TrackIdEncodes trackId := by
  cases v with
  | null =>
      cases parsed
      exact .inl rfl
  | str s =>
      simp only [parseTrackId] at parsed
      split at parsed
      · rename_i valid
        cases parsed
        exact .inr valid
      · cases parsed
  | bool | num | arr | obj => cases parsed

theorem parseFiniteFloat_value (field : String) {value : Single} (finite : value.Finite) :
    parseFiniteFloat field (.number value.value) = .ok value := by
  have small : |value.value| < 2 ^ 128 := finite
  simp [parseFiniteFloat, asFiniteFloat, small]

theorem parseFiniteFloat_finite {field : String} {v : Var} {value : Single}
    (parsed : parseFiniteFloat field v = .ok value) : value.Finite := by
  unfold parseFiniteFloat at parsed
  split at parsed
  · rename_i taken
    cases parsed
    obtain ⟨wide, _, narrowed⟩ := Option.bind_eq_some_iff.mp taken
    split at narrowed
    · rename_i small
      cases narrowed
      exact small
    · cases narrowed
  · cases parsed

theorem parseLoopValue_loopToVar {loop : Option LoopPoints}
    (ordered : ∀ points, loop = some points → points.Ordered) :
    parseLoopValue (loopToVar loop) = .ok loop := by
  cases loop with
  | none => rfl
  | some points =>
      have strict : points.inSeconds < points.outSeconds := ordered points rfl
      simp [loopToVar, parseLoopValue, hasOnlyKnownKeys, hasProperty, getProperty,
        List.lookup_cons, strict]

theorem parseLoopValue_ordered {v : Var} {points : LoopPoints}
    (parsed : parseLoopValue v = .ok (some points)) : points.Ordered := by
  cases v with
  | obj fields =>
      simp only [parseLoopValue] at parsed
      split at parsed
      · cases parsed
      · split at parsed
        · cases parsed
        · split at parsed
          · cases parsed
          · split at parsed
            · cases parsed
            · split at parsed
              · rename_i strict
                cases parsed
                exact strict
              · cases parsed
  | null | bool | num | str | arr => cases parsed

theorem parseProperty_some {Value : Type} {fields : Properties} {name : String}
    {parse : Var → Result Value} {value : Value}
    (parsed : parseProperty fields name parse = .ok (some value)) : ∃ v, parse v = .ok value := by
  unfold parseProperty at parsed
  cases found : fields.lookup name with
  | none => simp [found] at parsed
  | some v =>
      cases result : parse v with
      | error error => simp [found, result, Except.map] at parsed
      | ok actual =>
          simp only [found, result, Except.map, Except.ok.injEq, Option.some.injEq] at parsed
          exact ⟨v, by rw [result, parsed]⟩

/-- Whatever the codec takes, it can write again. -/
theorem StateDelta.ReadFrom.encodes {delta : StateDelta} {fields : Properties}
    (read : delta.ReadFrom fields) : delta.Encodes where
  trackId trackId present := by
    obtain ⟨_, parsed⟩ := parseProperty_some (present ▸ read.trackId)
    exact parseTrackId_encodes parsed
  gain value present := by
    obtain ⟨_, parsed⟩ := parseProperty_some (present ▸ read.gain)
    exact parseFiniteFloat_finite parsed
  playbackRate value present := by
    obtain ⟨_, parsed⟩ := parseProperty_some (present ▸ read.playbackRate)
    exact parseFiniteFloat_finite parsed
  pitchOffsetSemitones value present := by
    obtain ⟨_, parsed⟩ := parseProperty_some (present ▸ read.pitchOffsetSemitones)
    exact parseFiniteFloat_finite parsed
  loop points present := by
    obtain ⟨_, parsed⟩ := parseProperty_some (present ▸ read.loop)
    exact parseLoopValue_ordered parsed

theorem parseProperty_encoded {Value : Type} {fields : Properties} {name : String}
    {source : Option Value} {encode : Value → Var} {parse : Var → Result Value}
    (found : fields.lookup name = source.map encode)
    (parsed : ∀ value, source = some value → parse (encode value) = .ok value) :
    parseProperty fields name parse = .ok source := by
  have read := @parseProperty_of_lookup _ _ _ _ _ _ _ id found parsed
  simpa using read

theorem StateDelta.Encodes.readFrom {delta : StateDelta} (encodes : delta.Encodes)
    {fields : Properties}
    (found : ∀ key ∈ stateKeys, fields.lookup key = (deltaFields delta).lookup key) :
    delta.ReadFrom fields := by
  simp only [stateKeys, List.forall_mem_cons, deltaFields, List.lookup_append,
    AssocList.lookup_toList_map, String.reduceEq, ↓reduceIte, Option.none_or, Option.or_none]
    at found
  obtain ⟨trackId, playing, position, gain, rate, pitch, loop, repeats, _⟩ := found
  constructor
  · exact parseProperty_encoded trackId fun value present =>
      parseTrackId_trackIdToVar (encodes.trackId value present)
  · exact parseProperty_encoded playing fun value _ => parseBool_bool value
  · exact parseProperty_encoded position fun value _ => parseFinite_number _ value
  · exact parseProperty_encoded gain fun value present =>
      parseFiniteFloat_value _ (encodes.gain value present)
  · exact parseProperty_encoded rate fun value present =>
      parseFiniteFloat_value _ (encodes.playbackRate value present)
  · exact parseProperty_encoded pitch fun value present =>
      parseFiniteFloat_value _ (encodes.pitchOffsetSemitones value present)
  · exact parseProperty_encoded loop fun value present =>
      parseLoopValue_loopToVar fun points given => encodes.loop points (by rw [present, given])
  · exact parseProperty_encoded repeats fun value _ => parseBool_bool value

theorem hasOnlyKnownKeys_deltaFields (delta : StateDelta) :
    hasOnlyKnownKeys (deltaFields delta) ("deck" :: stateKeys) = true :=
  hasOnlyKnownKeys_deck_iff.mpr fun _ member _ => mem_stateKeys_of_mem_deltaFields member

theorem stateDeltaFromVar_toVar {delta : StateDelta} (encodes : delta.Encodes) :
    stateDeltaFromVar (stateDeltaToVar delta) = .ok delta := by
  refine stateDeltaFromVar_ok_iff.mpr ⟨?_, List.lookup_cons_self, encodes.readFrom ?_⟩
  · apply hasOnlyKnownKeys_deck_iff.mpr
    intro field member other
    rcases List.mem_cons.mp member with rfl | inner
    · exact absurd rfl other
    · exact mem_stateKeys_of_mem_deltaFields inner
  · intro key member
    have other : key ≠ "deck" := by
      rintro rfl
      exact deck_not_mem_stateKeys member
    rw [List.lookup_cons, beq_false_of_ne other]

theorem parseDeltaMessage_buildDelta {delta : StateDelta} (encodes : delta.Encodes) :
    parseDeltaMessage (buildDelta delta) = .ok delta := by
  rw [buildDelta_eq]
  refine parseDeltaMessage_ok_iff.mpr ⟨.str delta.deck.text, deltaFields delta, ?_, ?_,
    hasOnlyKnownKeys_deltaFields delta, ?_, encodes.readFrom fun _ _ => rfl⟩
  · simp [List.lookup_cons]
  · simp [getProperty, List.lookup_cons]
  · have none : (deltaFields delta).lookup "deck" = none := by
      rw [AssocList.lookup_eq_none_iff_not_mem_keys]
      intro present
      obtain ⟨field, member, named⟩ := List.mem_map.mp present
      exact deck_not_mem_stateKeys (named ▸ mem_stateKeys_of_mem_deltaFields member)
    rw [none]
    rfl

theorem playbackStateFromVar_toVar {state : PlaybackState} (encodes : state.Encodes) :
    playbackStateFromVar (playbackStateToVar state) = .ok state := by
  simp [playbackStateToVar, playbackStateFromVar, hasOnlyKnownKeys, stateKeys, parseFields,
    parseProperty, List.lookup_cons, parseTrackId_trackIdToVar encodes.trackId,
    parseLoopValue_loopToVar encodes.loop, parseFiniteFloat_value _ encodes.gain,
    parseFiniteFloat_value _ encodes.playbackRate,
    parseFiniteFloat_value _ encodes.pitchOffsetSemitones, Except.map, bind, Except.bind]

/-- The codec reads what it has written, a state, a delta and the message of a delta, and can
write and read again whatever delta it has read. -/
theorem codec_round_trip :
    (∀ state : PlaybackState, state.Encodes →
        playbackStateFromVar (playbackStateToVar state) = .ok state) ∧
      (∀ delta : StateDelta, delta.Encodes →
        stateDeltaFromVar (stateDeltaToVar delta) = .ok delta ∧
          parseDeltaMessage (buildDelta delta) = .ok delta) ∧
      ∀ (v : Var) (delta : StateDelta), stateDeltaFromVar v = .ok delta →
        stateDeltaFromVar (stateDeltaToVar delta) = .ok delta := by
  refine ⟨fun _ encodes => playbackStateFromVar_toVar encodes, fun _ encodes =>
    ⟨stateDeltaFromVar_toVar encodes, parseDeltaMessage_buildDelta encodes⟩, ?_⟩
  intro v delta parsed
  cases v with
  | obj fields =>
      have read := (stateDeltaFromVar_ok_iff.mp parsed).2.2
      exact stateDeltaFromVar_toVar read.encodes
  | null | bool | num | str | arr => cases parsed

/-- A deck that plays a loop of its track, slowed down and half a tone low. -/
def looping : PlaybackState :=
  { trackId := "intro.v2-final", playing := true, positionSeconds := 93 / 2,
    gain := .ofDouble (7 / 10), playbackRate := .ofDouble (11 / 12),
    pitchOffsetSemitones := .ofDouble (-1 / 2), loop := some ⟨40, 193 / 4⟩, repeats := false }

/-- The user moves the loop, turns the gain up and leaves the rest of the deck alone. -/
def relooped : StateDelta :=
  { deck := .B, trackId := some "intro.v2-final", positionSeconds := some 41,
    gain := some (.ofDouble (13 / 10)), loop := some (some ⟨40, 81 / 2⟩) }

/-- A delta that takes the track and the loop away. -/
def clearing : StateDelta := { deck := .A, trackId := some "", loop := some none }

theorem codec_round_trip_looping :
    playbackStateFromVar (playbackStateToVar looping) = .ok looping ∧
      parseDeltaMessage (buildDelta relooped) = .ok relooped ∧
      stateDeltaFromVar (stateDeltaToVar clearing) = .ok clearing ∧
      stateDeltaFromVar (stateDeltaToVar relooped) = .ok relooped := by
  have state : looping.Encodes := by
    refine ⟨.inr (by decide +kernel), by decide +kernel, by decide +kernel, by decide +kernel, ?_⟩
    intro points present
    cases present
    decide +kernel
  have moved : relooped.Encodes := by
    constructor
    · intro trackId present
      cases present
      exact .inr (by decide +kernel)
    · intro value present
      cases present
      decide +kernel
    · intro value present
      cases present
    · intro value present
      cases present
    · intro points present
      cases present
      decide +kernel
  have cleared : clearing.Encodes := by
    constructor
    · intro trackId present
      cases present
      exact .inl rfl
    · intro value present
      cases present
    · intro value present
      cases present
    · intro value present
      cases present
    · intro points present
      cases present
  have written := codec_round_trip.2.1 relooped moved
  exact ⟨codec_round_trip.1 looping state, written.2, (codec_round_trip.2.1 clearing cleared).1,
    codec_round_trip.2.2 _ _ written.1⟩

end RoundTrip

end DjApp.Client
