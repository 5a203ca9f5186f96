import DjApp.Client.Reentrancy
import DjApp.Client.StateHistory
import DjApp.Library.Patches

/-! The listeners of the state manager, which may apply deltas from inside their callbacks: the
later ones are then told of the nested delta first and of the outer one last. -/

set_option autoImplicit false

namespace DjApp.Client

open Library

inductive StateField where
  | trackId | playing | positionSeconds | gain | playbackRate | pitchOffsetSemitones | loop | repeats
  deriving DecidableEq

abbrev StateField.Value : StateField → Type
  | .trackId => String
  | .playing | .repeats => Bool
  | .positionSeconds => ℚ
  | .gain | .playbackRate | .pitchOffsetSemitones => Single
  | .loop => Option LoopPoints

instance : (field : StateField) → DecidableEq field.Value
  | .trackId => inferInstanceAs (DecidableEq String)
  | .playing | .repeats => inferInstanceAs (DecidableEq Bool)
  | .positionSeconds => inferInstanceAs (DecidableEq ℚ)
  | .gain | .playbackRate | .pitchOffsetSemitones => inferInstanceAs (DecidableEq Single)
  | .loop => inferInstanceAs (DecidableEq (Option LoopPoints))

def PlaybackState.get (state : PlaybackState) : (field : StateField) → field.Value
  | .trackId => state.trackId
  | .playing => state.playing
  | .positionSeconds => state.positionSeconds
  | .gain => state.gain
  | .playbackRate => state.playbackRate
  | .pitchOffsetSemitones => state.pitchOffsetSemitones
  | .loop => state.loop
  | .repeats => state.repeats

def StateDelta.get (delta : StateDelta) : (field : StateField) → Option field.Value
  | .trackId => delta.trackId
  | .playing => delta.playing
  | .positionSeconds => delta.positionSeconds
  | .gain => delta.gain
  | .playbackRate => delta.playbackRate
  | .pitchOffsetSemitones => delta.pitchOffsetSemitones
  | .loop => delta.loop
  | .repeats => delta.repeats

abbrev DeckField := DeckId × StateField

abbrev DeckField.Value (key : DeckField) : Type := key.2.Value

def fields (states : DeckId → PlaybackState) : (key : DeckField) → key.Value :=
  fun key => (states key.1).get key.2

/-- What a delta gives to the fields of the decks: nothing to those of the other deck. -/
def StateDelta.patch (delta : StateDelta) : Patches.Patch DeckField.Value :=
  fun key => if delta.deck = key.1 then delta.get key.2 else none

theorem get_merge (state : PlaybackState) (delta : StateDelta) (field : StateField) :
    (state.merge delta).get field = (delta.get field).getD (state.get field) := by
  cases field <;> rfl

theorem fields_injective : Function.Injective fields := by
  intro left right same
  funext deck
  have trackId := congrFun same (deck, .trackId)
  have playing := congrFun same (deck, .playing)
  have position := congrFun same (deck, .positionSeconds)
  have gain := congrFun same (deck, .gain)
  have rate := congrFun same (deck, .playbackRate)
  have pitch := congrFun same (deck, .pitchOffsetSemitones)
  have loop := congrFun same (deck, .loop)
  have repeats := congrFun same (deck, .repeats)
  simp only [fields, PlaybackState.get] at *
  cases l : left deck
  cases r : right deck
  simp_all

theorem fields_onto (states : DeckId → PlaybackState) (delta : StateDelta) :
    fields (delta.onto states) = Patches.lay (fields states) delta.patch := by
  funext key
  obtain ⟨deck, field⟩ := key
  by_cases named : deck = delta.deck
  · subst named
    simp only [fields, StateDelta.onto, Function.update_self, get_merge, Patches.lay,
      StateDelta.patch, ↓reduceIte]
  · simp only [fields, StateDelta.onto, Function.update_of_ne named, Patches.lay,
      StateDelta.patch, if_neg (Ne.symm named), Option.getD_none]

theorem fields_overlay (states : DeckId → PlaybackState) (deltas : List StateDelta) :
    fields (overlay states deltas) = Patches.layAll (fields states) (deltas.map StateDelta.patch) := by
  induction deltas using List.reverseRecOn with
  | nil => rfl
  | append_singleton deltas delta ih =>
      rw [List.map_append, List.map_singleton, Patches.layAll_concat, ← ih, ← fields_onto, overlay,
        List.foldl_append]
      rfl

namespace StateManager

/-- `applyDelta` tells its listeners of every delta that is not empty, and no walk is given up. -/
def announcer : Announcer StateManager (StateDelta × DeltaSource) (StateDelta × DeltaSource) where
  update manager input :=
    let (manager, notified) := manager.applyDelta input.1 input.2
    (manager, notified.map fun notification => (notification.applied, notification.source))
  superseded _ _ := false

def tellsOf (key : DeckField) (message : StateDelta × DeltaSource) : Bool :=
  (message.1.patch key).isSome

theorem announcer_update (manager : StateManager) (delta : StateDelta) (source : DeltaSource) :
    delta.empty = true ∧ announcer.update manager (delta, source) = (manager, none) ∨
      ∃ after, announcer.update manager (delta, source) =
          (after, some (manager.prepare delta source, source)) ∧
        after.states = (manager.prepare delta source).onto manager.states := by
  cases present : delta.empty with
  | true =>
      refine .inl ⟨rfl, ?_⟩
      simp only [announcer, applyDelta_of_empty manager source present, Option.map_none]
  | false =>
      refine .inr ⟨_, ?_, states_applyDelta present source⟩
      simp only [announcer, applyDelta, present, Bool.false_eq_true, ↓reduceIte, Option.map_some]

theorem announcer_tells (key : DeckField) :
    Observed.Announcer.Tells announcer (fun manager => fields manager.states key) (tellsOf key) where
  silent before input after updated := by
    rcases announcer_update before input.1 input.2 with ⟨_, same⟩ | ⟨_, told, _⟩
    · cases same.symm.trans updated
      rfl
    · cases told.symm.trans updated
  untold before input after message updated quiet := by
    rcases announcer_update before input.1 input.2 with ⟨_, same⟩ | ⟨_, told, changed⟩
    · cases same.symm.trans updated
    · cases told.symm.trans updated
      have absent := Option.not_isSome_iff_eq_none.mp (Bool.eq_false_iff.mp quiet)
      rw [changed, fields_onto, Patches.lay, absent]
      rfl
  superseded _ _ _ _ _ _ _ never := by cases never

def received (token : ℕ) (calls : List (ListenerCall StateManager (StateDelta × DeltaSource))) :
    List StateDelta :=
  (calls.filter (·.token = token)).map (·.message.1)

/-- A listener is called with a delta that gives a field another value than the state has by
now: a nested delta has overtaken it. -/
def Overtaken (call : ListenerCall StateManager (StateDelta × DeltaSource)) (key : DeckField) :
    Prop :=
  ∃ value, call.message.1.patch key = some value ∧ value ≠ fields call.state.states key

instance (call : ListenerCall StateManager (StateDelta × DeltaSource)) (key : DeckField) :
    Decidable (Overtaken call key) :=
  match given : call.message.1.patch key with
  | none => .isFalse fun ⟨_, found, _⟩ => by
      rw [given] at found
      cases found
  | some value =>
      if same : value = fields call.state.states key then
        .isFalse fun ⟨_, found, different⟩ => by
          rw [given] at found
          cases found
          exact different same
      else .isTrue ⟨value, given, same⟩

theorem last_received (token : ℕ) (key : DeckField)
    (calls : List (ListenerCall StateManager (StateDelta × DeltaSource))) :
    Patches.last key ((received token calls).map StateDelta.patch) =
      (Observed.lastCall (tellsOf key) token calls).map fun call => call.message.1.patch := by
  rw [Patches.last, received, List.map_map, List.filter_map, List.getLast?_map, List.filter_filter,
    Observed.lastCall]
  congr 2
  apply List.filter_congr
  intro call _
  exact Bool.and_comm _ _

section Reentrant

variable {callbacks : Observed.Callbacks StateManager (StateDelta × DeltaSource)
    (StateDelta × DeltaSource)} {fuel : ℕ}
  {before after : Observed StateManager (StateDelta × DeltaSource)} {delta : StateDelta}
  {source : DeltaSource}

/-- What a listener was told leads to the present states if the last delta with each field had
not been overtaken, and only then. -/
theorem overlay_received_iff
    (returned : Observed.perform announcer callbacks fuel before (.update (delta, source)) =
      some after) {token : ℕ} (earlier : token ∈ before.list.listeners)
    (later : token ∈ after.list.listeners) :
    overlay before.state.states (received token (before.since after)) = after.state.states ↔
      ∀ key call, Observed.lastCall (tellsOf key) token (before.since after) = some call →
        ¬ Overtaken call key := by
  rw [← fields_injective.eq_iff, funext_iff]
  apply forall_congr'
  intro key
  have current := ((announcer_tells key).rule.perform returned).2
  rw [fields_overlay, Patches.layAll_apply, last_received]
  cases last : Observed.lastCall (tellsOf key) token (before.since after) with
  | none =>
      have same := current.missed earlier later last
      simp only [Option.map_none, Option.bind_none, Option.getD_none, reduceCtorEq,
        false_imp_iff, implies_true, iff_true]
      exact same
  | some call =>
      have same := current.last earlier later last
      have member := List.mem_of_getLast? last
      have told := (Bool.and_eq_true_iff.mp (List.mem_filter.mp member).2).2
      obtain ⟨value, given⟩ := Option.isSome_iff_exists.mp told
      simp only [Option.map_some, Option.bind_some, given, Option.getD_some, Option.some.injEq]
      rw [← same]
      constructor
      · rintro kept _ rfl ⟨other, again, different⟩
        cases given.symm.trans again
        exact different kept
      · intro fresh
        by_contra different
        exact fresh call rfl ⟨value, given, different⟩

end Reentrant

/-- If no listener is called with a delta that has been overtaken, what each of them was told
leads from the states before the outermost call to the states after it; and it does so for a
single listener exactly if, of each field, the last delta it was told had not been overtaken. -/
theorem reentrant_deltas (callbacks : Observed.Callbacks StateManager (StateDelta × DeltaSource)
      (StateDelta × DeltaSource)) (fuel : ℕ)
    (before after : Observed StateManager (StateDelta × DeltaSource)) (delta : StateDelta)
    (source : DeltaSource)
    (returned : Observed.perform announcer callbacks fuel before (.update (delta, source)) =
      some after) :
    ((∀ call ∈ before.since after, ∀ key, ¬ Overtaken call key) →
      ∀ token ∈ before.list.listeners, token ∈ after.list.listeners →
        overlay before.state.states (received token (before.since after)) =
          after.state.states) ∧
    ∀ token ∈ before.list.listeners, token ∈ after.list.listeners →
      (overlay before.state.states (received token (before.since after)) = after.state.states ↔
        ∀ key call, Observed.lastCall (tellsOf key) token (before.since after) = some call →
          ¬ Overtaken call key) := by
  constructor
  · intro fresh token earlier later
    apply (overlay_received_iff returned earlier later).mpr
    intro key call last
    exact fresh call (List.mem_of_mem_filter (List.mem_of_getLast? last)) key
  · exact fun token earlier later => overlay_received_iff returned earlier later

def twoListeners : Observed StateManager (StateDelta × DeltaSource) where
  state := .initial
  list := (default : TokenListenerList).addListener.addListener

/-- The first listener answers a delta of deck A with a gain for a deck. -/
def answers (deck : DeckId) : Observed.Callbacks StateManager (StateDelta × DeltaSource)
    (StateDelta × DeltaSource) := fun calls =>
  match calls.getLast? with
  | some call =>
      if call.token = 0 ∧ call.message.1.deck = .A ∧ call.message.1.gain = some (.ofDouble (1 / 2))
      then [.update ({ deck := deck, gain := some (.ofDouble 2) }, .own)]
      else []
  | none => []

def halfGain : StateDelta × DeltaSource :=
  ({ deck := .A, gain := some (.ofDouble (1 / 2)) }, .own)

def answered (deck : DeckId) : Observed StateManager (StateDelta × DeltaSource) :=
  (Observed.perform announcer (answers deck) 5 twoListeners (.update halfGain)).getD twoListeners

theorem perform_answered (deck : DeckId) :
    Observed.perform announcer (answers deck) 5 twoListeners (.update halfGain) =
      some (answered deck) := by
  have returns : (Observed.perform announcer (answers deck) 5 twoListeners
      (.update halfGain)).isSome = true := by
    cases deck <;> decide +kernel
  obtain ⟨after, returned⟩ := Option.isSome_iff_exists.mp returns
  rw [answered, returned, Option.getD_some]

/-- The answer for the other deck overtakes nothing. -/
theorem reentrant_deltas_otherDeck :
    Observed.perform announcer (answers .B) 5 twoListeners (.update halfGain) =
        some (answered .B) ∧
      ∀ token ∈ twoListeners.list.listeners, token ∈ (answered .B).list.listeners →
        overlay twoListeners.state.states (received token (twoListeners.since (answered .B))) =
          (answered .B).state.states := by
  have fresh : ∀ deck field, ((twoListeners.since (answered .B)).all
      fun call => ! decide (Overtaken call (deck, field))) = true := by
    intro deck field
    cases deck <;> cases field <;> decide +kernel
  refine ⟨perform_answered .B, (reentrant_deltas (answers .B) 5 twoListeners (answered .B)
    halfGain.1 halfGain.2 (perform_answered .B)).1 fun call member key => ?_⟩
  have each := List.all_eq_true.mp (fresh key.1 key.2) call member
  simpa using each

/-- The second listener is told of the answer for the same deck first, and ends with the gain
that has been overtaken. -/
theorem stale_gain :
    ¬ ∀ (callbacks : Observed.Callbacks StateManager (StateDelta × DeltaSource)
        (StateDelta × DeltaSource)) (fuel : ℕ)
        (before after : Observed StateManager (StateDelta × DeltaSource)) (delta : StateDelta)
        (source : DeltaSource),
      Observed.perform announcer callbacks fuel before (.update (delta, source)) = some after →
        ∀ token ∈ before.list.listeners, token ∈ after.list.listeners →
          overlay before.state.states (received token (before.since after)) =
            after.state.states := by
  intro reconstructs
  have led := reconstructs (answers .A) 5 twoListeners (answered .A) halfGain.1 halfGain.2
    (perform_answered .A) 1 (by decide) (by decide +kernel)
  have gains : (overlay twoListeners.state.states
      (received 1 (twoListeners.since (answered .A))) .A).gain =
        ((answered .A).state.states .A).gain := by rw [led]
  revert gains
  decide +kernel

end StateManager

end DjApp.Client
