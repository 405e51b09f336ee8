import Vpnmgr.Core.Lines
import Vpnmgr.Core.Render

/-! Parsing a `.conf` does not depend on the secrets in it: with other keys in their places it gives
the same credentials but for the keys, or the same error. -/

namespace Vpnmgr

open Fallible Text

/-- The key of a secret as it may stand before the equals sign. -/
structure IsSecretKey (key : List Char) : Prop where
  plain : IsPlainText key
  single : '=' ∉ key
  secret : toAsciiLowercase (.ofList (trimChars key)) ∈ secretKeys

/-- A value that decodes to the bytes of a key. -/
structure IsSecret (value : List Char) : Prop where
  plain : IsPlainText value
  decodes : ∃ bytes, decodeKey (.ofList value) = .ok bytes

/-- The same line, or the same secret key with another value, and the same comment. -/
inductive SameButSecret : List Char → List Char → Prop where
  | same (line : List Char) : SameButSecret line line
  | secret {key value value' comment : List Char} : IsSecretKey key → IsSecret value →
      IsSecret value' → IsComment comment →
      SameButSecret (key ++ '=' :: value ++ comment) (key ++ '=' :: value' ++ comment)

/-- Texts whose lines differ in the values of secret keys alone. -/
def SecretsDiffer (text text' : String) : Prop :=
  List.Forall₂ SameButSecret (split '\n' text.toList) (split '\n' text'.toList)

/-- As far apart as secrets make two readings: the lines and the errors are the same. -/
def Distance.ofSecrets : Distance where
  line := (· = ·)
  error := (· = ·)
  text v w := v = w ∨ (∃ bytes, decodeKey v = .ok bytes) ∧ ∃ bytes, decodeKey w = .ok bytes
  secret _ _ := True

theorem Distance.ofSecrets_sound : ofSecrets.Sound where
  error_self _ := rfl
  error e _ _ h := congrArg e h
  text_self _ := .inl rfl
  secret := by
    rintro v w (rfl | ⟨⟨bytes, hv⟩, bytes', hw⟩)
    · exact Alike.self _ (fun _ => rfl) fun _ => trivial
    · rw [SecretKey.fromBase64, SecretKey.fromBase64, hv, hw]
      exact .ok trivial

/-- The value of a secret is trimmed before it is decoded. -/
theorem IsSecret.trimmed {value : List Char} (h : IsSecret value) :
    ∃ bytes, decodeKey (.ofList (trimChars value)) = .ok bytes := by
  obtain ⟨bytes, hbytes⟩ := h.decodes
  refine ⟨bytes, ?_⟩
  rw [← hbytes, decodeKey, decodeKey, String.toList_ofList, String.toList_ofList,
    trimChars_trimChars]

theorem lineOf_secret {key value comment : List Char} (hkey : IsSecretKey key)
    (hvalue : IsSecret value) (hcomment : IsComment comment) :
    lineOf (key ++ '=' :: value ++ comment) =
      .entry (.ofList (trimChars key)) (.ofList (trimChars value)) := by
  rw [lineOf_congr (bare_comment hcomment _)]
  exact lineOf_entry hkey.plain hvalue.plain hkey.single (not_bracketed (by decide) hkey.secret)

theorem SameButSecret.line_like {raw raw' : List Char} (h : SameButSecret raw raw') :
    (lineOf raw).Like .ofSecrets (lineOf raw') := by
  cases h with
  | same => exact .inl rfl
  | secret hkey hvalue hvalue' hcomment =>
    exact .inr ⟨_, _, _, hkey.secret, .inr ⟨hvalue.trimmed, hvalue'.trimmed⟩,
      lineOf_secret hkey hvalue hcomment, lineOf_secret hkey hvalue' hcomment⟩

theorem SecretsDiffer.read_alike {text text' : String} (h : SecretsDiffer text text') :
    Alike (· = ·) (Sections.Like .ofSecrets) (Sections.read text) (Sections.read text') := by
  have hlines (start : Nat) : List.Forall₂ (fun a b => a.1.Like .ofSecrets b.1 ∧ a.2 = b.2)
      (((split '\n' text.toList).map lineOf).zipIdx start)
      (((split '\n' text'.toList).map lineOf).zipIdx start) := by
    rw [SecretsDiffer] at h
    generalize split '\n' text.toList = lines, split '\n' text'.toList = lines' at h ⊢
    induction h generalizing start with
    | nil => exact .nil
    | cons hline _ ih => exact .cons ⟨hline.line_like, rfl⟩ (ih (start + 1))
  rw [Sections.read_eq, Sections.read_eq]
  exact Alike.foldlM (hlines 1) (fun _ _ _ _ hs hl => hs.take Distance.ofSecrets_sound hl.1 hl.2)
    (Sections.Like.empty _)

/-- Whatever else is in a text, the keys in it decide neither whether it parses nor what the error
says, and of the credentials they decide the keys. -/
theorem ClientConfig.parse_independent {text text' : String} (h : SecretsDiffer text text') :
    (∃ e, parse text = .error e ∧ parse text' = .error e) ∨
      ∃ client client', parse text = .ok client ∧ parse text' = .ok client' ∧
        client' = { client with
          privateKey := client'.privateKey, presharedKey := client'.presharedKey } := by
  have halike : Alike (· = ·) (ClientConfig.Like .ofSecrets) (parse text) (parse text') :=
    h.read_alike.bind fun _ _ hs => Sections.client_alike Distance.ofSecrets_sound hs
  generalize parse text = parsed, parse text' = parsed' at halike ⊢
  cases halike with
  | error he => exact .inl ⟨_, rfl, he ▸ rfl⟩
  | ok hclient => exact .inr ⟨_, _, rfl, rfl, hclient.others⟩

theorem isSecret_encodeKey (bytes : Vector UInt8 32) : IsSecret (encodeKey bytes).toList where
  plain c hc := by
    have hplain := (isValue_key bytes).plain c hc
    exact not_or.mpr hplain.2
  decodes := ⟨bytes, by rw [String.ofList_toList, decodeKey_encodeKey]⟩

/-- The lines of a `.conf` with this private key. -/
def Sample.keyed (bytes : Vector UInt8 32) : List (List Char) :=
  ["[Interface]".toList, "PrivateKey".toList ++ '=' :: (encodeKey bytes).toList ++ "# mine".toList,
    "Address = 10.0.0.2/32".toList, "[Peer]".toList,
    "PublicKey = AAAAAAAAAAAAAAAAAAAAAAAAAAAAAAAAAAAAAAAAAAA=".toList]

/-- Texts with a key of zeros and a key of ones in one place. -/
theorem Sample.keyed_alike :
    let text := textOf (keyed (.replicate 32 0))
    let text' := textOf (keyed (.replicate 32 1))
    (∃ e, ClientConfig.parse text = .error e ∧ ClientConfig.parse text' = .error e) ∨
      ∃ client client', ClientConfig.parse text = .ok client ∧
        ClientConfig.parse text' = .ok client' ∧ client' = { client with
          privateKey := client'.privateKey, presharedKey := client'.presharedKey } := by
  refine ClientConfig.parse_independent ?_
  have hlines (bytes : Vector UInt8 32) (h : ∀ line ∈ keyed bytes, '\n' ∉ line) :
      split '\n' (textOf (keyed bytes)).toList = keyed bytes :=
    split_textOf (List.cons_ne_nil _ _) h
  have hkey : IsSecretKey "PrivateKey".toList :=
    ⟨by decide +kernel, by decide +kernel, by decide +kernel⟩
  rw [SecretsDiffer, hlines _ (by decide +kernel), hlines _ (by decide +kernel)]
  exact .cons (.same _) (.cons (.secret hkey (isSecret_encodeKey _) (isSecret_encodeKey _)
    (by decide +kernel))
    (.cons (.same _) (.cons (.same _) (.cons (.same _) .nil))))

end Vpnmgr
