import NotificationPlatform.Provisioning

/-!
# The writers of provider configurations

Three handlers write the column `config_json`. Two of them encode the ciphertext as a JSON string,
as the reader expects; provisioning binds the ciphertext itself.
-/

namespace NotificationPlatform

open Lib

/-- A request that reaches a statement which writes `config_json`. -/
inductive ConfigWriter where
  | createProviderConfig (req : NewProviderConfig)
  | updateProviderConfig (req : ProviderConfigUpdate)
  | applyTenantProvisioning (p : ProvisionedProvider)

namespace ConfigWriter

/-- The value bound to `config_json`, or the error of the encryption; an update without a
configuration leaves the column alone. -/
def bound (gcm : Gcm) (encKey : Option EncKey) (random : Option Nonce) :
    ConfigWriter → Option (Except Err String)
  | .createProviderConfig req =>
      let configRaw := if req.configJSON = "" then "\x7b\x7d" else req.configJSON
      some (ProviderConfig.encryptedProviderConfigJSON gcm encKey random configRaw)
  | .updateProviderConfig req =>
      if req.configJSON ≠ "" then
        some (ProviderConfig.encryptedProviderConfigJSON gcm encKey random req.configJSON)
      else none
  | .applyTenantProvisioning _ => some (Security.encrypt gcm encKey random "\x7b\x7d")

def intended : ConfigWriter → String
  | .createProviderConfig req => if req.configJSON = "" then "\x7b\x7d" else req.configJSON
  | .updateProviderConfig req => req.configJSON
  | .applyTenantProvisioning _ => "\x7b\x7d"

end ConfigWriter

/-- The cast of the value succeeds, and what is stored is read back as the configuration. -/
structure ReadsBack (gcm : Gcm) (encKey : Option EncKey) (value plain : String) : Prop where
  valid : JsonText.isJson value = true
  reads : ∃ stored, jsonbString value = some stored ∧
    ProviderConfig.decryptProviderConfigJSON gcm encKey stored = .ok (textBytes plain)

variable {gcm : Gcm} {encKey : Option EncKey} {random : Option Nonce}

theorem key_of_encrypt {plain encrypted : String} (hplain : plain ≠ "")
    (h : Security.encrypt gcm encKey random plain = .ok encrypted) :
    ∃ key nonce, encKey = some key ∧ random = some nonce := by
  simp only [Security.encrypt, if_neg hplain] at h
  cases encKey with
  | none => simp at h
  | some key =>
      cases random with
      | none => simp at h
      | some nonce => exact ⟨key, nonce, rfl, rfl⟩

theorem isJson_encrypt {plain encrypted : String} (hplain : plain ≠ "")
    (h : Security.encrypt gcm encKey random plain = .ok encrypted) :
    JsonText.isJson encrypted = false := by
  obtain ⟨key, nonce, rfl, rfl⟩ := key_of_encrypt hplain h
  rw [Security.encrypt, if_neg hplain] at h
  obtain rfl := Except.ok.inj h
  apply JsonText.isJson_eq_false (c := 'e')
  · rw [String.toList_ofList]
    rfl
  · decide

theorem readsBack_encrypted (hopens : gcm.Opens) {plain value : String} (hplain : plain ≠ "")
    (h : ProviderConfig.encryptedProviderConfigJSON gcm encKey random plain = .ok value) :
    ReadsBack gcm encKey value plain := by
  cases hencrypt : Security.encrypt gcm encKey random plain with
  | error e => simp [ProviderConfig.encryptedProviderConfigJSON, hencrypt, bind, Except.bind] at h
  | ok encrypted =>
      obtain ⟨key, nonce, rfl, rfl⟩ := key_of_encrypt hplain hencrypt
      obtain ⟨encrypted', hencrypt', hzero, hdecrypt⟩ := decrypt_encrypt hopens key nonce plain
      obtain rfl : encrypted' = encrypted := Except.ok.inj (hencrypt'.symm.trans hencrypt)
      have hvalue : JsonText.literal JsonText.escapeGo encrypted' = value := by
        rw [ProviderConfig.encryptedProviderConfigJSON, hencrypt] at h
        exact Except.ok.inj h
      subst hvalue
      refine ⟨JsonText.isJson_of_readText (JsonText.readText_literal JsonText.reads_go _),
        _, jsonbString_literal hzero, ?_⟩
      rw [ProviderConfig.decryptProviderConfigJSON,
        JsonText.unmarshalString_literal JsonText.reads_jsonb]
      exact hdecrypt

/-- A writer stores what the reader expects exactly when it is not the provisioning. -/
theorem writer_reads_back_iff (hopens : gcm.Opens) {writer : ConfigWriter} {value : String}
    (hbound : writer.bound gcm encKey random = some (.ok value)) :
    ReadsBack gcm encKey value writer.intended ↔ ∀ p, writer ≠ .applyTenantProvisioning p := by
  cases writer with
  | createProviderConfig req =>
      have hraw : (if req.configJSON = "" then "\x7b\x7d" else req.configJSON) ≠ "" := by
        split
        · decide
        · assumption
      have hvalue := readsBack_encrypted hopens hraw (Option.some.inj hbound)
      exact iff_of_true hvalue (by simp)
  | updateProviderConfig req =>
      by_cases hraw : req.configJSON = ""
      · simp [ConfigWriter.bound, hraw] at hbound
      · rw [ConfigWriter.bound, if_pos hraw] at hbound
        exact iff_of_true (readsBack_encrypted hopens hraw (Option.some.inj hbound)) (by simp)
  | applyTenantProvisioning p =>
      have hinvalid := isJson_encrypt (by decide) (Option.some.inj hbound)
      constructor
      · intro hreads
        rw [hreads.valid] at hinvalid
        exact absurd hinvalid (by decide)
      · intro hnot
        exact absurd rfl (hnot p)

def sampleCreation : ConfigWriter := .createProviderConfig ⟨"t1", "email", "smtp", true, ""⟩

def sampleProvisioning : ConfigWriter := .applyTenantProvisioning ⟨"email", "smtp", true⟩

theorem created_config_reads_back : ∃ value,
    sampleCreation.bound sampleGcm (some sampleEncKey) (some sampleNonce) = some (.ok value) ∧
      ReadsBack sampleGcm (some sampleEncKey) value "{}" := by
  obtain ⟨value, hvalue⟩ : ∃ value, sampleCreation.bound sampleGcm (some sampleEncKey)
      (some sampleNonce) = some (.ok value) := ⟨_, rfl⟩
  exact ⟨value, hvalue, (writer_reads_back_iff sampleGcm_opens hvalue).mpr (by simp [sampleCreation])⟩

theorem provisioned_config_unreadable : ¬∀ (gcm : Gcm) (encKey : Option EncKey)
    (random : Option Nonce) (writer : ConfigWriter) (value : String), gcm.Opens →
    writer.bound gcm encKey random = some (.ok value) →
      ReadsBack gcm encKey value writer.intended := by
  intro h
  obtain ⟨value, hvalue⟩ : ∃ value, sampleProvisioning.bound sampleGcm (some sampleEncKey)
      (some sampleNonce) = some (.ok value) := ⟨_, rfl⟩
  have hreads := h _ _ _ _ value sampleGcm_opens hvalue
  have hinvalid := isJson_encrypt (by decide) (Option.some.inj hvalue)
  rw [hreads.valid] at hinvalid
  exact absurd hinvalid (by decide)

end NotificationPlatform
