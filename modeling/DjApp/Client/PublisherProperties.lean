import DjApp.Client.FrameHandling

/-! What the publisher owes the wire: the deltas it has sent, and then what it still
holds, are the changes it was told of. -/

set_option autoImplicit false

namespace DjApp.Client

def deltasOf (messages : List ClientMessage) : List StateDelta :=
  messages.filterMap fun
    | .delta delta => some delta
    | _ => none

@[simp] theorem deltasOf_append (first second : List ClientMessage) :
    deltasOf (first ++ second) = deltasOf first ++ deltasOf second := by
  simp [deltasOf]

@[simp] theorem deltasOf_map_delta (deltas : List StateDelta) :
    deltasOf (deltas.map .delta) = deltas := by
  simp [deltasOf]

namespace Decks

def overlay (decks : Decks) (delta : StateDelta) : Decks :=
  Function.update decks delta.deck ((decks delta.deck).merge delta)

def overlayAll (decks : Decks) (deltas : List StateDelta) : Decks := deltas.foldl overlay decks

@[simp] theorem overlayAll_nil (decks : Decks) : decks.overlayAll [] = decks := rfl

@[simp] theorem overlayAll_append (decks : Decks) (first second : List StateDelta) :
    decks.overlayAll (first ++ second) = (decks.overlayAll first).overlayAll second :=
  List.foldl_append

theorem overlay_apply (decks : Decks) (delta : StateDelta) (deck : DeckId) :
    decks.overlay delta deck =
      if deck = delta.deck then (decks deck).merge delta else decks deck := by
  by_cases same : deck = delta.deck
  · subst same
    simp [overlay]
  · simp [overlay, same]

end Decks

theorem merge_mergeField (state : PlaybackState) (pending incoming : StateDelta) :
    state.merge (mergeField pending incoming) = (state.merge pending).merge incoming := by
  simp [PlaybackState.merge, mergeField, Option.getD_or]

theorem merge_self (state : PlaybackState) (delta : StateDelta) :
    (state.merge delta).merge delta = state.merge delta := by
  have kept : ∀ {Value : Type} (said : Option Value) (value : Value),
      said.getD (said.getD value) = said.getD value := by
    intro Value said value
    cases said with
    | none | some _ => rfl
  simp only [PlaybackState.merge, kept]

namespace SyncPublisher

/-- What is pending for a deck is a delta of that deck. -/
def Keyed (publisher : SyncPublisher) : Prop :=
  ∀ deck delta, publisher.pending deck = some delta → delta.deck = deck

/-- The decks once everything pending has been sent. -/
def settle (publisher : SyncPublisher) (decks : Decks) : Decks :=
  fun deck => (publisher.pending deck).elim (decks deck) (decks deck).merge

theorem settle_congr {left right : SyncPublisher} (same : left.pending = right.pending) :
    left.settle = right.settle := by
  unfold settle
  rw [same]

theorem settle_of_idle {publisher : SyncPublisher} (idle : ∀ deck, publisher.pending deck = none)
    (decks : Decks) : publisher.settle decks = decks := by
  funext deck
  simp [settle, idle deck]

/-- A send that changes no deck once everything is sent, and keeps the rest. What it sends,
and what it still holds, was pending. -/
structure Sends (publisher : SyncPublisher) (sent : SyncPublisher × List StateDelta) : Prop where
  keyed : sent.1.Keyed
  held : ∀ deck, ∀ delta ∈ sent.1.pending deck, delta ∈ publisher.pending deck
  drawn : ∀ delta ∈ sent.2, delta ∈ publisher.pending delta.deck
  settled : ∀ decks : Decks, sent.1.settle (decks.overlayAll sent.2) = publisher.settle decks
  connected : sent.1.connected = publisher.connected
  role : sent.1.role = publisher.role

theorem Sends.refl {publisher : SyncPublisher} (keyed : publisher.Keyed) :
    publisher.Sends (publisher, []) :=
  ⟨keyed, fun _ _ held => held, by simp, fun _ => rfl, rfl, rfl⟩

theorem Sends.trans {publisher : SyncPublisher} {first second : SyncPublisher × List StateDelta}
    (before : publisher.Sends first) (after : first.1.Sends second) :
    publisher.Sends (second.1, first.2 ++ second.2) where
  keyed := after.keyed
  held deck delta held := before.held deck delta (after.held deck delta held)
  drawn := List.forall_mem_append.mpr
    ⟨before.drawn, fun delta sent => before.held _ delta (after.drawn delta sent)⟩
  settled decks := by
    rw [Decks.overlayAll_append, after.settled, before.settled]
  connected := after.connected.trans before.connected
  role := after.role.trans before.role

variable {publisher : SyncPublisher} (keyed : publisher.Keyed) (now : ℚ)

include keyed

theorem send_sends (deck : DeckId) : publisher.Sends (publisher.send now deck) := by
  unfold send
  cases pending : publisher.pending deck with
  | none => exact .refl keyed
  | some delta =>
      have named : delta.deck = deck := keyed deck delta pending
      have remains : ∀ other, ∀ held ∈ Function.update publisher.pending deck none other,
          held ∈ publisher.pending other := by
        intro other held found
        simp only [Function.update_apply] at found
        split at found
        · cases found
        · exact found
      refine ⟨fun other held found => keyed other held (remains other held found), remains, ?_,
        fun decks => ?_, rfl, rfl⟩
      · intro sent listed
        obtain rfl := List.mem_singleton.mp listed
        rw [named]
        exact pending
      · funext other
        by_cases same : other = deck
        · subst same
          simp [settle, pending, Decks.overlayAll, Decks.overlay, named]
        · simp [settle, Decks.overlayAll, Decks.overlay_apply, named, same]

theorem flushDeck_sends (deck : DeckId) : publisher.Sends (publisher.flushDeck now deck) := by
  unfold flushDeck
  split
  · exact .refl keyed
  · exact send_sends keyed now deck

theorem timerCallback_sends : publisher.Sends (publisher.timerCallback now) := by
  have first := flushDeck_sends keyed now .A
  have both := first.trans (flushDeck_sends first.keyed now .B)
  exact ⟨both.keyed, both.held, both.drawn, both.settled, both.connected, both.role⟩

theorem maybeSend_sends (deck : DeckId) : publisher.Sends (publisher.maybeSend now deck) := by
  unfold maybeSend
  split
  · exact ⟨keyed, fun _ _ held => held, by simp, fun _ => rfl, rfl, rfl⟩
  · exact send_sends keyed now deck

omit keyed in
/-- The publisher with a delta pending for its deck. -/
def holding (publisher : SyncPublisher) (merged : StateDelta) : SyncPublisher :=
  { publisher with pending := Function.update publisher.pending merged.deck (some merged) }

omit keyed in
theorem pending_holding_of_ne {merged : StateDelta} {deck : DeckId} (other : deck ≠ merged.deck) :
    (publisher.holding merged).pending deck = publisher.pending deck :=
  Function.update_of_ne other _ _

theorem keyed_holding (merged : StateDelta) : (publisher.holding merged).Keyed := by
  intro other held found
  simp only [holding, Function.update_apply] at found
  split at found
  · rename_i same
    cases found
    exact same.symm
  · exact keyed other held found

/-- A change is merged into what is pending for its deck, and then perhaps sent. -/
theorem handleLocalDelta_holding (applied : StateDelta) :
    ∃ merged : StateDelta, merged.deck = applied.deck ∧
      (∀ decks : Decks, (decks applied.deck).merge merged =
        (publisher.settle decks applied.deck).merge applied) ∧
      publisher.handleLocalDelta now applied =
        (publisher.holding merged).maybeSend now applied.deck := by
  cases pending : publisher.pending applied.deck with
  | none => exact ⟨applied, rfl, fun decks => by simp [settle, pending],
      by simp [holding, handleLocalDelta, pending]⟩
  | some held =>
      have named : (mergeField held applied).deck = applied.deck := keyed _ held pending
      exact ⟨mergeField held applied, named,
        fun decks => by simp [settle, pending, merge_mergeField],
        by simp [holding, handleLocalDelta, pending, named]⟩

/-- A change the publisher is told of ends up behind everything it owed already. -/
theorem handleLocalDelta_settled (applied : StateDelta) :
    let sent := publisher.handleLocalDelta now applied
    sent.1.Keyed ∧
      (∀ decks : Decks,
        sent.1.settle (decks.overlayAll sent.2) = (publisher.settle decks).overlay applied) ∧
      sent.1.connected = publisher.connected ∧ sent.1.role = publisher.role := by
  intro sent
  obtain ⟨merged, deck, effect, shape⟩ := handleLocalDelta_holding keyed now applied
  have sends := maybeSend_sends (keyed_holding keyed merged) now applied.deck
  rw [← shape] at sends
  refine ⟨sends.keyed, fun decks => ?_, sends.connected, sends.role⟩
  rw [sends.settled]
  funext other
  rw [Decks.overlay_apply]
  by_cases same : other = applied.deck
  · subst same
    simp [holding, settle, effect, deck]
  · simp [holding, settle, same, deck]

omit keyed in
/-- What the publisher makes of a change of its own client. -/
def tell (publisher : SyncPublisher) (now : ℚ) (applied : StateDelta) :
    SyncPublisher × List StateDelta :=
  if publisher.connected = true ∧ publisher.role = .controller then
    publisher.handleLocalDelta now applied
  else (publisher, [])

omit keyed in
theorem notify_own (publisher : SyncPublisher) (now : ℚ) (applied : StateDelta)
    (newState : PlaybackState) :
    publisher.notify now ⟨applied, newState, .own⟩ = publisher.tell now applied := by
  unfold notify tell
  cases publisher.connected <;> cases publisher.role <;> simp

theorem settle_tell (applied : StateDelta) (connected : publisher.connected = true)
    (role : publisher.role = .controller) (decks : Decks) :
    (publisher.tell now applied).1.settle (decks.overlayAll (publisher.tell now applied).2) =
      (publisher.settle decks).overlay applied := by
  rw [tell, if_pos ⟨connected, role⟩]
  exact (handleLocalDelta_settled keyed now applied).2.1 decks

omit keyed in
/-- With nothing pending and outside its deck's throttle window, a change is sent as it is. -/
theorem tell_of_idle {applied : StateDelta} (connected : publisher.connected = true)
    (role : publisher.role = .controller) (idle : ∀ deck, publisher.pending deck = none)
    (unthrottled : publisher.throttled now applied.deck = false) :
    (publisher.tell now applied).2 = [applied] ∧
      (∀ deck, (publisher.tell now applied).1.pending deck = none) ∧
      (publisher.tell now applied).1.connected = true ∧
      (publisher.tell now applied).1.role = .controller := by
  let holding : SyncPublisher := { publisher with
    pending := Function.update publisher.pending applied.deck (some applied) }
  have held : holding.throttled now applied.deck = false := unthrottled
  have told : publisher.tell now applied = holding.send now applied.deck := by
    rw [tell, if_pos ⟨connected, role⟩, handleLocalDelta, idle applied.deck]
    exact (if_neg (by simp [held]) : holding.maybeSend now applied.deck = _)
  have pending : holding.pending applied.deck = some applied := by simp [holding]
  rw [told, send, pending]
  refine ⟨rfl, fun deck => ?_, connected, role⟩
  simp only [holding, Function.update_apply]
  split
  · rfl
  · exact idle deck

/-- What is pending for a deck says nothing but what this state of it shows. -/
def Repeats (publisher : SyncPublisher) (deck : DeckId) (state : PlaybackState) : Prop :=
  ∀ delta ∈ publisher.pending deck, state.merge delta = state

omit keyed in
instance (deck : DeckId) (state : PlaybackState) : Decidable (publisher.Repeats deck state) :=
  inferInstanceAs (Decidable (∀ delta ∈ publisher.pending deck, state.merge delta = state))

omit keyed in
theorem settle_eq_self_iff (decks : Decks) :
    publisher.settle decks = decks ↔ ∀ deck, publisher.Repeats deck (decks deck) := by
  refine funext_iff.trans (forall_congr' fun deck => ?_)
  cases pending : publisher.pending deck with
  | none => simp [settle, Repeats, pending]
  | some delta => simp [settle, Repeats, pending]

omit keyed in
theorem Sends.repeats {sent : SyncPublisher × List StateDelta} (sends : publisher.Sends sent)
    {deck : DeckId} {state : PlaybackState} (repeats : publisher.Repeats deck state) :
    sent.1.Repeats deck state :=
  fun delta held => repeats delta (sends.held deck delta held)

/-- A change on top of decks that all pending deltas repeat is repeated, and sent, as it is
on top of them. -/
theorem tell_repeats (applied : StateDelta) {decks : Decks}
    (repeats : ∀ deck, publisher.Repeats deck (decks deck))
    (controls : publisher.connected = true ∧ publisher.role = .controller) :
    let told := publisher.tell now applied
    let changed := decks.overlay applied
    (∀ deck, told.1.Repeats deck (changed deck)) ∧
      ∀ delta ∈ told.2, (changed delta.deck).merge delta = changed delta.deck := by
  intro told changed
  have overlaid := decks.overlay_apply applied
  obtain ⟨merged, named, effect, shape⟩ := handleLocalDelta_holding keyed now applied
  have all : ∀ deck, (publisher.holding merged).Repeats deck (changed deck) := by
    intro deck delta held
    by_cases same : deck = applied.deck
    · subst same
      obtain rfl : merged = delta := by simpa [holding, named] using held
      have shown : changed applied.deck = (decks applied.deck).merge merged := by
        rw [effect, (settle_eq_self_iff decks).mpr repeats]
        exact (overlaid applied.deck).trans (if_pos rfl)
      rw [shown, merge_self]
    · rw [pending_holding_of_ne (named ▸ same)] at held
      have shown : changed deck = decks deck := (overlaid deck).trans (if_neg same)
      rw [shown]
      exact repeats deck delta held
  have sends := maybeSend_sends (keyed_holding keyed merged) now applied.deck
  have handled : told = (publisher.holding merged).maybeSend now applied.deck :=
    (if_pos controls).trans shape
  rw [← handled] at sends
  exact ⟨fun deck => sends.repeats (all deck), fun delta listed => all _ delta (sends.drawn delta listed)⟩

end SyncPublisher

theorem overlayAll_pushFullResync (base : Decks) (component : MainComponent) :
    base.overlayAll (deltasOf component.pushFullResync) = component.stateManager.states := by
  funext deck
  cases deck <;> rfl

end DjApp.Client
