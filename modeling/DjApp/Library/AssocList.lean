import Mathlib.Data.List.Nodup

/-! Lists of keyed entries in which no key occurs twice. -/

set_option autoImplicit false

namespace DjApp.Library.AssocList

variable {Key Value : Type}

theorem nodup_keys_filter {entries : List (Key × Value)} (distinct : (entries.map (·.1)).Nodup)
    (keep : Key × Value → Bool) : ((entries.filter keep).map (·.1)).Nodup :=
  distinct.sublist (List.filter_sublist.map _)

def update [BEq Key] (key : Key) (change : Value → Value) (entries : List (Key × Value)) :
    List (Key × Value) :=
  entries.map fun entry => if entry.1 == key then (entry.1, change entry.2) else entry

@[simp] theorem keys_update [BEq Key] (key : Key) (change : Value → Value)
    (entries : List (Key × Value)) :
    (update key change entries).map (·.1) = entries.map (·.1) := by
  rw [update, List.map_map]
  apply List.map_congr_left
  intro entry _
  rw [Function.comp_apply]
  split <;> rfl

theorem update_update [BEq Key] (key : Key) (first second : Value → Value)
    (entries : List (Key × Value)) :
    update key second (update key first entries) = update key (second ∘ first) entries := by
  unfold update
  rw [List.map_map]
  apply List.map_congr_left
  intro entry _
  by_cases here : (entry.1 == key) = true
  · simp only [Function.comp_apply, here, ↓reduceIte]
  · simp only [Function.comp_apply, here, Bool.false_eq_true, ↓reduceIte]

theorem countP_update_of_eq [BEq Key] (key : Key) {change : Value → Value}
    {counted : Value → Bool} (same : ∀ value, counted (change value) = counted value)
    (entries : List (Key × Value)) :
    (update key change entries).countP (counted ·.2) = entries.countP (counted ·.2) := by
  rw [update, List.countP_map]
  apply List.countP_congr
  intro entry _
  rw [Function.comp_apply]
  split <;> simp only [same]

variable [BEq Key] [LawfulBEq Key]

theorem mem_of_lookup {entries : List (Key × Value)} {key : Key} {value : Value}
    (found : entries.lookup key = some value) : (key, value) ∈ entries := by
  obtain ⟨before, after, rfl, _⟩ := List.lookup_eq_some_iff.mp found
  simp

theorem lookup_eq_none_iff_not_mem_keys {entries : List (Key × Value)} {key : Key} :
    entries.lookup key = none ↔ key ∉ entries.map (·.1) := by
  rw [List.lookup_eq_none_iff]
  constructor
  · intro absent present
    obtain ⟨entry, member, rfl⟩ := List.mem_map.mp present
    exact absurd (absent entry member) (by simp)
  · intro absent entry member
    have other : key ≠ entry.1 := fun same => absent (same ▸ List.mem_map_of_mem member)
    simpa using other

theorem lookup_of_mem {entries : List (Key × Value)} (distinct : (entries.map (·.1)).Nodup)
    {key : Key} {value : Value} (member : (key, value) ∈ entries) :
    entries.lookup key = some value := by
  induction entries with
  | nil => cases member
  | cons entry rest ih =>
      obtain ⟨fresh, distinct⟩ := List.nodup_cons.mp distinct
      rcases List.mem_cons.mp member with rfl | member
      · simp
      · have present : key ∈ rest.map (·.1) := List.mem_map.mpr ⟨_, member, rfl⟩
        have other : key ≠ entry.1 := by
          rintro rfl
          exact fresh present
        rw [List.lookup_cons, beq_false_of_ne other]
        exact ih distinct member

theorem nodup_keys_concat {entries : List (Key × Value)} (distinct : (entries.map (·.1)).Nodup)
    {key : Key} (fresh : entries.lookup key = none) (value : Value) :
    ((entries ++ [(key, value)]).map (·.1)).Nodup := by
  have absent := lookup_eq_none_iff_not_mem_keys.mp fresh
  rw [List.map_append, List.nodup_append]
  refine ⟨distinct, by simp, ?_⟩
  rintro left leftMember right rightMember rfl
  simp only [List.map_cons, List.map_nil, List.mem_singleton] at rightMember
  exact absent (rightMember ▸ leftMember)

theorem lookup_toList_map [DecidableEq Key] {Source : Type} (key name : Key) (source : Option Source)
    (value : Source → Value) :
    (source.toList.map fun x => (name, value x)).lookup key =
      if key = name then source.map value else none := by
  cases source with
  | none => simp
  | some x =>
      by_cases same : key = name
      · subst same
        simp
      · simp [List.lookup_cons, same, beq_false_of_ne same]

theorem lookup_filter_ne {key removed : Key} (other : key ≠ removed)
    (entries : List (Key × Value)) :
    (entries.filter (·.1 != removed)).lookup key = entries.lookup key := by
  induction entries with
  | nil => rfl
  | cons entry rest ih =>
      obtain ⟨name, value⟩ := entry
      by_cases dropped : name = removed
      · subst dropped
        simp [ih, List.lookup_cons, beq_false_of_ne other]
      · have kept : (name != removed) = true := by simpa using dropped
        by_cases found : key = name
        · subst found
          simp [kept]
        · simp [kept, List.lookup_cons, beq_false_of_ne found, ih]

theorem lookup_map_key {Name Other : Type} [BEq Name] [LawfulBEq Name] {rename : Key → Name}
    (injective : Function.Injective rename) (key : Key) (convert : Value → Other)
    (entries : List (Key × Value)) :
    (entries.map fun entry => (rename entry.1, convert entry.2)).lookup (rename key) =
      (entries.lookup key).map convert := by
  induction entries with
  | nil => rfl
  | cons entry rest ih =>
      obtain ⟨name, value⟩ := entry
      by_cases found : key = name
      · subst found
        simp
      · have renamed : rename key ≠ rename name := injective.ne found
        simp [List.lookup_cons, beq_false_of_ne found, beq_false_of_ne renamed, ih]

theorem lookup_map {Other : Type} (key : Key) (convert : Value → Other)
    (entries : List (Key × Value)) :
    (entries.map fun entry => (entry.1, convert entry.2)).lookup key =
      (entries.lookup key).map convert :=
  lookup_map_key Function.injective_id key convert entries

theorem lookup_update (key other : Key) (change : Value → Value) (entries : List (Key × Value)) :
    (update key change entries).lookup other =
      if other == key then (entries.lookup other).map change else entries.lookup other := by
  induction entries with
  | nil => simp [update]
  | cons entry rest ih =>
      obtain ⟨name, value⟩ := entry
      rw [update, List.map_cons, ← update]
      by_cases here : name = key
      · subst here
        by_cases found : other = name
        · subst found
          simp
        · simp [List.lookup_cons, beq_false_of_ne found, ih]
      · by_cases found : other = name
        · subst found
          simp [beq_false_of_ne here]
        · simp [List.lookup_cons, beq_false_of_ne found, ih, beq_false_of_ne here]

theorem forall_update {key : Key} {change : Value → Value} {entries : List (Key × Value)}
    {holds : Key × Value → Prop} (others : ∀ entry ∈ entries, entry.1 ≠ key → holds entry)
    (changed : ∀ value, (key, value) ∈ entries → holds (key, change value)) :
    ∀ entry ∈ update key change entries, holds entry := by
  intro entry member
  obtain ⟨source, listed, rfl⟩ := List.mem_map.mp member
  by_cases same : source.1 = key
  · subst same
    rw [if_pos (beq_self_eq_true _)]
    exact changed source.2 listed
  · rw [if_neg (by simpa using same)]
    exact others source listed same

/-- A count over the entries moves with the one that changes. -/
theorem countP_update {key : Key} {value : Value} {entries : List (Key × Value)}
    (distinct : (entries.map (·.1)).Nodup) (found : entries.lookup key = some value)
    (change : Value → Value) (counted : Value → Bool) :
    (update key change entries).countP (counted ·.2) + (counted value).toNat =
      entries.countP (counted ·.2) + (counted (change value)).toNat := by
  induction entries with
  | nil => cases found
  | cons entry rest ih =>
      obtain ⟨name, held⟩ := entry
      obtain ⟨fresh, others⟩ := List.nodup_cons.mp distinct
      rw [update, List.map_cons, ← update, List.countP_cons, List.countP_cons]
      by_cases here : name = key
      · subst here
        have still : update name change rest = rest := by
          refine (List.map_congr_left fun entry member => ?_).trans (List.map_id rest)
          have other : entry.1 ≠ name := by
            rintro rfl
            exact fresh (List.mem_map.mpr ⟨entry, member, rfl⟩)
          rw [if_neg (by simpa using other)]
          rfl
        obtain rfl : held = value := by simpa using found
        rw [still, if_pos (beq_self_eq_true _)]
        cases counted held <;> cases counted (change held) <;> simp
      · have later : rest.lookup key = some value := by
          simpa [List.lookup_cons, beq_false_of_ne (Ne.symm here)] using found
        have counts := ih others later
        have kept : (name == key) = false := beq_false_of_ne here
        simp only [kept, Bool.false_eq_true, ↓reduceIte]
        omega

end DjApp.Library.AssocList
