import Vpnmgr.Core.Config
import Vpnmgr.Library.Base64

/-! Keys as text: base64 of their 32 bytes. -/

namespace Vpnmgr

open Text

inductive KeyError where
  | notBase64
  | wrongLength (n : Nat)
  deriving DecidableEq, Repr

def KeyError.message : KeyError → String
  | notBase64 => "not valid base64"
  | wrongLength n => s!"expected 32 bytes, got {n}"

/-- `decode` of a key, which may have space around it. -/
def decodeKey (s : String) : Except KeyError (Vector UInt8 32) :=
  match Base64.decode (trimChars s.toList) with
  | none => .error .notBase64
  | some raw =>
    if h : raw.toArray.size = 32 then .ok ⟨raw.toArray, h⟩ else .error (.wrongLength raw.length)

def encodeKey (bytes : Vector UInt8 32) : String := String.ofList (Base64.encode bytes.toList)

def PublicKey.fromBase64 (s : String) : Except KeyError PublicKey := (decodeKey s).map .mk

def PublicKey.toBase64 (k : PublicKey) : String := encodeKey k.bytes

def SecretKey.fromBase64 (s : String) : Except KeyError SecretKey := (decodeKey s).map .mk

def SecretKey.exposeBase64 (k : SecretKey) : String := encodeKey k.bytes

theorem isWhitespace_of_mem_encodeKey {bytes : Vector UInt8 32} {c : Char}
    (h : c ∈ (encodeKey bytes).toList) : isWhitespace c = false := by
  have hall : ∀ n < 64, isWhitespace (Base64.charOf n) = false := by decide +kernel
  rw [encodeKey, String.toList_ofList] at h
  rcases Base64.mem_encode h with rfl | ⟨n, hn, rfl⟩
  · decide
  · exact hall n hn

theorem decodeKey_encodeKey (bytes : Vector UInt8 32) : decodeKey (encodeKey bytes) = .ok bytes := by
  have htrim : trimChars (encodeKey bytes).toList = Base64.encode bytes.toList := by
    rw [trimChars_of_not_whitespace fun c hc => isWhitespace_of_mem_encodeKey hc, encodeKey,
      String.toList_ofList]
  have hsize : bytes.toList.toArray.size = 32 := by simp
  rw [decodeKey, htrim, Base64.decode_encode]
  simp only [hsize, dite_true]
  congr 1

theorem PublicKey.fromBase64_toBase64 (k : PublicKey) : fromBase64 k.toBase64 = .ok k := by
  rw [fromBase64, toBase64, decodeKey_encodeKey]
  rfl

theorem SecretKey.fromBase64_exposeBase64 (k : SecretKey) :
    fromBase64 k.exposeBase64 = .ok k := by
  rw [fromBase64, exposeBase64, decodeKey_encodeKey]
  rfl

end Vpnmgr
