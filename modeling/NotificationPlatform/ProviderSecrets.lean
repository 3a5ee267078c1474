import NotificationPlatform.Lib.Base64
import NotificationPlatform.Lib.JsonText
import NotificationPlatform.Request

/-!
# Provider configurations at rest

A configuration is sealed with AES-GCM, written in base64 behind a prefix and stored as a JSON
string. Reading it guesses which of these layers a stored text has, since older rows hold the
configuration itself.
-/

namespace NotificationPlatform

open Lib

def textBytes (s : String) : List UInt8 := s.toUTF8.data.toList

/-- What `SetEncryptionKey` stores: a SHA-256 sum. -/
abbrev EncKey := { key : List UInt8 // key.length = 32 }

abbrev Nonce := { nonce : List UInt8 // nonce.length = 12 }

/-- `cipher.NewGCM` of the standard library: its `Seal` and `Open` without additional data. -/
structure Gcm where
  sealUnder : EncKey → Nonce → List UInt8 → List UInt8
  openUnder : EncKey → Nonce → List UInt8 → Option (List UInt8)

/-- `Open` undoes `Seal` under the same key and nonce. -/
def Gcm.Opens (gcm : Gcm) : Prop :=
  ∀ key nonce plain, gcm.openUnder key nonce (gcm.sealUnder key nonce plain) = some plain

namespace Security

def encPrefix : List Char := ['e', 'n', 'c', ':', 'v', '1', ':']

/-- `security.Encrypt`. The key is missing before `SetEncryptionKey`, and then `aes.NewCipher`
fails; `random` is what `rand.Read` puts into the nonce. -/
def encrypt (gcm : Gcm) (encKey : Option EncKey) (random : Option Nonce) (plain : String) :
    Except Err String :=
  if plain = "" then .ok ""
  else
    match encKey with
    | none => .error (.text "crypto/aes: invalid key size 0")
    | some key =>
        match random with
        | none => .error .driver
        | some nonce =>
            let ciphertext := nonce.val ++ gcm.sealUnder key nonce (textBytes plain)
            .ok (String.ofList (encPrefix ++ Base64.encode ciphertext))

def decrypt (gcm : Gcm) (encKey : Option EncKey) (ciphertext : String) :
    Except Err (List UInt8) :=
  if ciphertext = "" then .ok []
  else if encPrefix.isPrefixOf ciphertext.toList then
    match encKey with
    | none => .error (.text "crypto/aes: invalid key size 0")
    | some key =>
        match Base64.decode (ciphertext.toList.drop encPrefix.length) with
        -- the error of the decoder is dropped
        | none => .ok []
        | some raw =>
            if hsize : raw.length < 12 then .error (.text "ciphertext too short")
            else
              let nonce : Nonce := ⟨raw.take 12, by simp; omega⟩
              match gcm.openUnder key nonce (raw.drop 12) with
              | none => .error (.text "cipher: message authentication failed")
              | some plain => .ok plain
  else .ok (textBytes ciphertext)

end Security

namespace ProviderConfig

def encryptedProviderConfigJSON (gcm : Gcm) (encKey : Option EncKey) (random : Option Nonce)
    (raw : String) : Except Err String := do
  let encrypted ← Security.encrypt gcm encKey random raw
  return JsonText.literal JsonText.escapeGo encrypted

def decryptProviderConfigJSON (gcm : Gcm) (encKey : Option EncKey) (raw : String) :
    Except Err (List UInt8) :=
  match JsonText.unmarshalString raw with
  | some encrypted => Security.decrypt gcm encKey encrypted
  | none => Security.decrypt gcm encKey raw

end ProviderConfig

/-- The text of a `jsonb` column into which a JSON string was written. The character U+0000 is
rejected. -/
def jsonbString (json : String) : Option String :=
  match JsonText.readText json with
  | some value =>
      if '\x00' ∈ value.toList then none
      else some (JsonText.literal JsonText.escapeJsonb value)
  | none => none

/-- The text of a `jsonb` column that holds an object, from its keys and the texts of their
values. -/
def jsonbObject (members : List (String × String)) : String :=
  "\x7b" ++ ", ".intercalate (members.map fun m =>
    JsonText.literal JsonText.escapeJsonb m.1 ++ ": " ++ m.2) ++ "\x7d"

section

variable {gcm : Gcm}

theorem decrypt_encrypt (hopens : gcm.Opens) (key : EncKey) (nonce : Nonce) (plain : String) :
    ∃ encrypted, Security.encrypt gcm (some key) (some nonce) plain = .ok encrypted ∧
      '\x00' ∉ encrypted.toList ∧
      Security.decrypt gcm (some key) encrypted = .ok (textBytes plain) := by
  by_cases hplain : plain = ""
  · subst hplain
    exact ⟨"", rfl, by simp, rfl⟩
  · refine ⟨_, by rw [Security.encrypt, if_neg hplain], ?_, ?_⟩
    · intro hzero
      rw [String.toList_ofList, List.mem_append] at hzero
      rcases hzero with hzero | hzero
      · simp [Security.encPrefix] at hzero
      · obtain ⟨n, hn, hdigit⟩ := Base64.exists_digit_of_mem_encode hzero
        have hvalue := Base64.value_digit hn
        rw [← hdigit] at hvalue
        simp [Base64.value] at hvalue
    · set ciphertext := nonce.val ++ gcm.sealUnder key nonce (textBytes plain) with hcipher
      have hne : String.ofList (Security.encPrefix ++ Base64.encode ciphertext) ≠ "" := by
        intro h
        have hlist := congrArg String.toList h
        simp [Security.encPrefix] at hlist
      have hsize : ¬ciphertext.length < 12 := by
        rw [hcipher, List.length_append, nonce.property]
        omega
      have htake : ciphertext.take 12 = nonce.val := by
        exact List.take_left' nonce.property
      have hdrop : ciphertext.drop 12 = gcm.sealUnder key nonce (textBytes plain) := by
        exact List.drop_left' nonce.property
      have hnonce : (⟨ciphertext.take 12, by simp; omega⟩ : Nonce) = nonce := Subtype.ext htake
      rw [Security.decrypt, if_neg hne, if_pos (by simp)]
      simp only [String.toList_ofList, List.drop_left, Base64.decode_encode, dif_neg hsize, hnonce,
        hdrop, hopens key nonce]

theorem jsonbString_literal {value : String} (hzero : '\x00' ∉ value.toList) :
    jsonbString (JsonText.literal JsonText.escapeGo value) =
      some (JsonText.literal JsonText.escapeJsonb value) := by
  simp only [jsonbString, JsonText.readText_literal JsonText.reads_go, if_neg hzero]

theorem decryptProviderConfigJSON_object (encKey : Option EncKey) {text : String} {cs : List Char}
    (h : text.toList = '{' :: cs) :
    ProviderConfig.decryptProviderConfigJSON gcm encKey text = .ok (textBytes text) := by
  have hne : text ≠ "" := by
    rintro rfl
    simp at h
  have hprefix : ¬Security.encPrefix.isPrefixOf text.toList = true := by
    rw [h]
    simp [Security.encPrefix]
  simp only [ProviderConfig.decryptProviderConfigJSON, JsonText.unmarshalString_object h,
    Security.decrypt, if_neg hne, if_neg hprefix]

/-- What is stored is read back: every configuration that is encrypted, and every object from
before. -/
theorem provider_config_survives_storage (hopens : gcm.Opens) (key : EncKey) (nonce : Nonce) :
    (∀ s, ∃ json stored,
      ProviderConfig.encryptedProviderConfigJSON gcm (some key) (some nonce) s = .ok json ∧
      jsonbString json = some stored ∧
      ProviderConfig.decryptProviderConfigJSON gcm (some key) stored = .ok (textBytes s)) ∧
    ∀ members, ProviderConfig.decryptProviderConfigJSON gcm (some key) (jsonbObject members) =
      .ok (textBytes (jsonbObject members)) := by
  constructor
  · intro s
    obtain ⟨encrypted, hencrypt, hzero, hdecrypt⟩ := decrypt_encrypt hopens key nonce s
    refine ⟨_, _, ?_, jsonbString_literal hzero, ?_⟩
    · rw [ProviderConfig.encryptedProviderConfigJSON, hencrypt]
      rfl
    · rw [ProviderConfig.decryptProviderConfigJSON,
        JsonText.unmarshalString_literal JsonText.reads_jsonb]
      exact hdecrypt
  · intro members
    apply decryptProviderConfigJSON_object
    simp only [jsonbObject, String.toList_append]
    rfl

end

/-! The cipher at one key, nonce and text, with the bytes AES-GCM returns there. -/

def sampleEncKey : EncKey :=
  ⟨[208, 65, 83, 51, 12, 201, 165, 131, 11, 86, 245, 81, 8, 31, 31, 209, 54, 41, 178, 145, 118, 123,
    183, 218, 46, 89, 49, 105, 75, 247, 74, 46], rfl⟩

def sampleNonce : Nonce := ⟨[0, 1, 2, 3, 4, 5, 6, 7, 8, 9, 10, 11], rfl⟩

def sampleSealed : List UInt8 :=
  [116, 85, 241, 236, 232, 106, 174, 18, 33, 62, 90, 131, 93, 133, 215, 147, 200, 42]

def sampleGcm : Gcm where
  sealUnder key nonce plain :=
    if key = sampleEncKey ∧ nonce = sampleNonce ∧ plain = [123, 125] then sampleSealed
    else plain ++ List.replicate 16 0
  openUnder key nonce sealed :=
    if key = sampleEncKey ∧ nonce = sampleNonce ∧ sealed = sampleSealed then some [123, 125]
    else some (sealed.take (sealed.length - 16))

theorem sampleGcm_opens : sampleGcm.Opens := by
  intro key nonce plain
  by_cases h : key = sampleEncKey ∧ nonce = sampleNonce ∧ plain = [123, 125]
  · obtain ⟨rfl, rfl, rfl⟩ := h
    simp [sampleGcm]
  · have hother : plain ++ List.replicate 16 0 ≠ sampleSealed := by
      intro heq
      have hlast := congrArg List.getLast? heq
      simp [sampleSealed, List.getLast?_append] at hlast
    simp only [sampleGcm, if_neg h, hother, and_false, if_false]
    simp

theorem provider_config_survives_braces :
    ∃ json stored,
      ProviderConfig.encryptedProviderConfigJSON sampleGcm (some sampleEncKey) (some sampleNonce)
        "\x7b\x7d" = .ok json ∧
      jsonbString json = some stored ∧
      ProviderConfig.decryptProviderConfigJSON sampleGcm (some sampleEncKey) stored =
        .ok (textBytes "\x7b\x7d") :=
  (provider_config_survives_storage sampleGcm_opens sampleEncKey sampleNonce).1 _

end NotificationPlatform
