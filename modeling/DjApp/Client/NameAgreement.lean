import DjApp.Client.ReplicaKnowledge
import DjApp.Server.Crowd

/-! The two tests of a name. The client counts code points, the server UTF-16 units, and
for names without format characters that is all they differ in. -/

set_option autoImplicit false

namespace DjApp.Library.Utf16

theorem isWellFormed_encode (text : List Char) : isWellFormed (encode text) = true := by
  rw [isWellFormed, codePoints_encode, List.all_map, List.all_eq_true]
  intro char _
  have valid : char.toNat < 0xD800 ∨ 0xDFFF < char.toNat ∧ char.toNat < 0x110000 := char.valid
  have scalar : isSurrogate char.toNat = false := by
    rw [Bool.eq_false_iff, ne_eq, isSurrogate_iff]
    omega
  simp [scalar]

theorem length_le_length_encode (text : List Char) : text.length ≤ (encode text).length := by
  have points := length_codePoints_le (encode text)
  rwa [codePoints_encode, List.length_map] at points

end DjApp.Library.Utf16

namespace DjApp

open Library

namespace Server

/-- A code point of Unicode category Cf. -/
def isFormatChar (codePoint : ℕ) : Bool :=
  formatRanges.any fun range => range.1 ≤ codePoint && codePoint ≤ range.2

/-- Any room takes a hello with its own version and code and this name. -/
def AcceptedAsName (name : JsString) : Prop :=
  ∀ expected : Expected, 1 ≤ expected.roomCode.length →
    expected.roomCode.length ≤ roomCodeMaxLength →
      validateHello (helloMessage expected.protocolVersion name expected.roomCode) expected =
        .ok ⟨expected.protocolVersion, name, expected.roomCode⟩

theorem acceptedAsName_iff (name : JsString) : AcceptedAsName name ↔ ValidName name := by
  constructor
  · intro accepted
    have taken := accepted ⟨2, js "A"⟩ (by decide) (by decide)
    exact (validateHello_ok taken).2.1
  · intro valid expected nonempty bounded
    exact @validateHello_helloMessage ⟨expected.roomCode, 0, expected.protocolVersion⟩ name valid
      ⟨nonempty, bounded⟩

end Server

namespace Client

theorem js_hasControlChars {name : String}
    (noFormat : ∀ char ∈ name.toList, Server.isFormatChar char.toNat = false) :
    Server.hasControlChars (js name) = !isPrintableNoControlChars name := by
  rw [Server.hasControlChars, js, Utf16.codePoints_encode, List.any_map,
    isPrintableNoControlChars, List.not_all_eq_any_not, Bool.eq_iff_iff, List.any_eq_true,
    List.any_eq_true]
  refine exists_congr fun char => and_congr_right fun member => ?_
  have plain := noFormat char member
  simp only [Server.isFormatChar] at plain
  simp only [Function.comp_apply, Server.isControlChar, plain, Bool.or_false, Bool.not_not]

theorem validName_js_iff {name : String}
    (noFormat : ∀ char ∈ name.toList, Server.isFormatChar char.toNat = false) :
    Server.ValidName (js name) ↔
      name.toList ≠ [] ∧ isPrintableNoControlChars name = true ∧ (js name).length ≤ 32 := by
  have nonempty : 1 ≤ (js name).length ↔ name.toList ≠ [] := by
    rw [Nat.one_le_iff_ne_zero, ne_eq, List.length_eq_zero_iff, js,
      ← Utf16.codePoints_eq_nil_iff, Utf16.codePoints_encode, List.map_eq_nil_iff]
  have control := js_hasControlChars noFormat
  constructor
  · intro valid
    refine ⟨nonempty.mp valid.nonempty, ?_, valid.bounded⟩
    have printable := valid.printable
    rwa [control, Bool.not_eq_false'] at printable
  · rintro ⟨some, printable, bounded⟩
    refine ⟨nonempty.mpr some, bounded, ?_, Utf16.isWellFormed_encode name.toList⟩
    rw [control, printable]
    rfl

theorem isValidHelloName_iff (name : String) :
    isValidHelloName name = true ↔
      name.toList ≠ [] ∧ isPrintableNoControlChars name = true ∧ name.toList.length ≤ 32 := by
  simp only [isValidHelloName, Bool.and_eq_true, Bool.not_eq_true', List.isEmpty_eq_false_iff,
    decide_eq_true_eq]
  tauto

/-- The two tests agree on a name exactly when it is not a printable one that fits in code
points but not in UTF-16 units. -/
theorem names_agree_iff (name : String)
    (noFormat : ∀ char ∈ name.toList, Server.isFormatChar char.toNat = false) :
    ((isValidHelloName name = true ↔ Server.AcceptedAsName (js name)) ∧
      (isValidPeerName name = true ↔ Server.AcceptedAsName (js name))) ↔
      ¬ (isPrintableNoControlChars name = true ∧ name.toList.length ≤ 32 ∧
        32 < (js name).length) := by
  have longer : name.toList.length ≤ (js name).length := Utf16.length_le_length_encode name.toList
  have same : isValidPeerName name = isValidHelloName name := rfl
  rw [same, and_self_iff, Server.acceptedAsName_iff, validName_js_iff noFormat, isValidHelloName_iff]
  constructor
  · rintro agree ⟨printable, fits, wide⟩
    have some : name.toList ≠ [] := by
      intro none
      rw [js, none] at wide
      cases wide
    exact absurd (agree.mp ⟨some, printable, fits⟩).2.2 (not_le.mpr wide)
  · intro narrow
    constructor
    · rintro ⟨some, printable, fits⟩
      exact ⟨some, printable, not_lt.mp fun wide => narrow ⟨printable, fits, wide⟩⟩
    · rintro ⟨some, printable, bounded⟩
      exact ⟨some, printable, longer.trans bounded⟩

theorem names_agree_ana :
    ((isValidHelloName "Ana" = true ↔ Server.AcceptedAsName (js "Ana")) ∧
      (isValidPeerName "Ana" = true ↔ Server.AcceptedAsName (js "Ana"))) ↔
      ¬ (isPrintableNoControlChars "Ana" = true ∧ "Ana".toList.length ≤ 32 ∧
        32 < (js "Ana").length) := by
  apply names_agree_iff "Ana"
  intro char member
  have plain : "Ana".toList.all (fun char => !Server.isFormatChar char.toNat) = true := by decide
  simpa using List.all_eq_true.mp plain char member

/-- A character from outside the basic plane. -/
def wideChar : Char := Char.ofNat 0x1F600

theorem isFormatChar_wideChar : Server.isFormatChar wideChar.toNat = false := by decide

def wideText : String := String.ofList (List.replicate 17 wideChar)

theorem names_disagree_wideText :
    ¬ ∀ name : String, (∀ char ∈ name.toList, Server.isFormatChar char.toNat = false) →
      (isValidHelloName name = true ↔ Server.AcceptedAsName (js name)) := by
  intro agree
  have noFormat : ∀ char ∈ wideText.toList, Server.isFormatChar char.toNat = false := by
    intro char member
    rw [wideText, String.toList_ofList] at member
    rw [List.eq_of_mem_replicate member]
    exact isFormatChar_wideChar
  have accepted := (agree wideText noFormat).mp (by decide)
  rw [Server.acceptedAsName_iff] at accepted
  exact absurd accepted.bounded (by decide)

end Client

end DjApp
