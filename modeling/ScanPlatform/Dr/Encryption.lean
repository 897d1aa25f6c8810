import ScanPlatform.Dr.Backup

/-!
# Encryption at rest

An artifact is encrypted in place, behind a marker, a nonce of 12 bytes and nothing else. The marker
tells whether an artifact is encrypted, so that it is not encrypted twice, and what can be
decrypted.

* `Library.Authenticated`: what AES-GCM is relied on for;
* `Encryption`, `Produced`, `encryptCalls`: what one call stores, and what some calls leave;
* `stored_encryptCalls`, `decryptBytes_encryption`, **`decryptBytes_produced`**: the file after the
  calls, and what can be decrypted;
* `FailsClosed`, `RoundTrips`, **`encryption_round_trips_iff`**: which contents come back, and which
  other bytes are a `DecryptionError`; `marked_or_cut` are one of each that do not.
-/

set_option autoImplicit false

namespace ScanPlatform.Dr

/-! ## The cipher -/

/-- AES-GCM: a nonce of at least 8 bytes, a tag of 16 bytes, and no answer to what it has not
produced. -/
structure Library.Authenticated (lib : Library) : Prop where
  correct : ∀ key nonce content, 8 ≤ nonce.length →
    lib.decrypt key nonce (lib.encrypt key nonce content) = some content
  authentic : ∀ key nonce ciphertext content,
    lib.decrypt key nonce ciphertext = some content → ciphertext = lib.encrypt key nonce content
  tagged : ∀ key nonce content, (lib.encrypt key nonce content).length = content.length + 16

/-- What `os.urandom(_NONCE_LEN)` returns. -/
structure Nonce where
  bytes : Content
  length : bytes.length = 12

variable (lib : Library) (key : Content)

/-- An encryption of a content under the key. -/
def Encryption (content blob : Content) : Prop :=
  ∃ nonce : Nonce, blob = encryptedMagic ++ nonce.bytes ++ lib.encrypt key nonce.bytes content

/-- The bytes are an encryption of some content under the key. -/
def Produced (blob : Content) : Prop := ∃ content, Encryption lib key content blob

/-- Calls of `encrypt_file`, each with a nonce of its own. -/
def encryptCalls (a : Artifact) (nonces : List Nonce) (files : SetFiles) : SetFiles :=
  nonces.foldl (fun files nonce => encryptFile lib key nonce.bytes a files) files

/-- Bytes that have not been produced under the key are a `DecryptionError`. -/
def FailsClosed (blob : Content) : Prop :=
  ¬ Produced lib key blob → decryptBytes lib key blob = .error .decryption

/-- The file is an encryption of its content and is decrypted to it, and other bytes are not. -/
structure RoundTrips (a : Artifact) (files : SetFiles) (content blob : Content) : Prop where
  stored : ∃ stored, files (.artifact a) = some stored ∧ Encryption lib key content stored ∧
    decryptBytes lib key stored = .ok content
  closed : FailsClosed lib key blob

/-! ## What the calls leave -/

variable {lib key} {a : Artifact} {files : SetFiles} {content blob : Content}

theorem encryptedMagic_length : encryptedMagic.length = 8 := rfl

theorem encryptFile_artifact (nonce : Content) (h : files (.artifact a) = some content) :
    encryptFile lib key nonce a files (.artifact a) =
      some (if encryptedMagic.isPrefixOf content then content
        else encryptedMagic ++ nonce ++ lib.encrypt key nonce content) := by
  unfold encryptFile writeChecksum
  rw [h]
  dsimp only
  rw [Table.set_of_ne _ _ SetFile.noConfusion, Table.set_self]

/-- A file with the marker stays as it is. -/
theorem encryptCalls_marked (hmarked : encryptedMagic.isPrefixOf content = true)
    (h : files (.artifact a) = some content) (nonces : List Nonce) :
    encryptCalls lib key a nonces files (.artifact a) = some content := by
  induction nonces generalizing files with
  | nil => exact h
  | cons nonce nonces ih =>
    have hkept : encryptFile lib key nonce.bytes a files (.artifact a) = _ :=
      encryptFile_artifact nonce.bytes h
    rw [if_pos hmarked] at hkept
    exact ih hkept

theorem marked_append (nonce ciphertext : Content) :
    encryptedMagic.isPrefixOf (encryptedMagic ++ nonce ++ ciphertext) = true := by
  rw [List.isPrefixOf_iff_prefix, List.append_assoc]
  exact List.prefix_append _ _

/-- **What the calls leave** of a file without the marker is an encryption of it, by the first. -/
theorem stored_encryptCalls (h : files (.artifact a) = some content)
    (hmarked : encryptedMagic.isPrefixOf content = false) (nonce : Nonce) (nonces : List Nonce) :
    encryptCalls lib key a (nonce :: nonces) files (.artifact a) =
      some (encryptedMagic ++ nonce.bytes ++ lib.encrypt key nonce.bytes content) := by
  have hfirst : encryptFile lib key nonce.bytes a files (.artifact a) = _ :=
    encryptFile_artifact nonce.bytes h
  rw [hmarked] at hfirst
  exact encryptCalls_marked (marked_append _ _) hfirst nonces

/-! ## What can be decrypted -/

/-- **An encryption is decrypted to its content.** -/
theorem decryptBytes_encryption (hlib : lib.Authenticated) (h : Encryption lib key content blob) :
    decryptBytes lib key blob = .ok content := by
  obtain ⟨nonce, rfl⟩ := h
  have hnonce : ((encryptedMagic ++ nonce.bytes ++ lib.encrypt key nonce.bytes content).drop 8).take
      12 = nonce.bytes := by
    rw [List.append_assoc, List.drop_left' encryptedMagic_length, List.take_left' nonce.length]
  have hrest : (encryptedMagic ++ nonce.bytes ++ lib.encrypt key nonce.bytes content).drop 20 =
      lib.encrypt key nonce.bytes content := by
    refine List.drop_left' ?_
    rw [List.length_append, encryptedMagic_length, nonce.length]
  have hlong : 8 ≤ nonce.bytes.length := by
    rw [nonce.length]
    decide
  unfold decryptBytes
  rw [if_pos (marked_append _ _), hnonce, hrest]
  simp only [Nat.not_lt.mpr hlong, if_false, hlib.correct key nonce.bytes content hlong]

/-- **What is decrypted has been produced.** -/
theorem decryptBytes_produced (hlib : lib.Authenticated)
    (h : decryptBytes lib key blob = .ok content) : Encryption lib key content blob := by
  unfold decryptBytes at h
  dsimp only at h
  split_ifs at h with hmarked hshort
  cases hanswer : lib.decrypt key ((blob.drop 8).take 12) (blob.drop 20) with
  | none =>
    rw [hanswer] at h
    cases h
  | some plaintext =>
    rw [hanswer] at h
    obtain rfl := Except.ok.inj h
    have hciphertext := hlib.authentic _ _ _ _ hanswer
    obtain ⟨rest, rfl⟩ := List.isPrefixOf_iff_prefix.mp hmarked
    rw [List.drop_left' encryptedMagic_length] at hciphertext hshort
    have hlong : 12 < rest.length := by
      have htag := congrArg List.length hciphertext
      rw [hlib.tagged, List.length_drop, List.length_append, encryptedMagic_length] at htag
      omega
    refine ⟨⟨rest.take 12, by rw [List.length_take]; omega⟩, ?_⟩
    have hrest : (encryptedMagic ++ rest).drop 20 = rest.drop 12 := by
      rw [List.drop_append, encryptedMagic_length]
      rfl
    rw [← hciphertext, hrest, List.append_assoc, List.take_append_drop]

/-- Bytes with the marker fail closed when there are 8 of the nonce. -/
theorem failsClosed_iff (hlib : lib.Authenticated) :
    FailsClosed lib key blob ↔ (encryptedMagic.isPrefixOf blob = true → 16 ≤ blob.length) := by
  constructor
  · intro hclosed hmarked
    by_contra hshort
    have hlength : ((blob.drop 8).take 12).length < 8 := by
      rw [List.length_take, List.length_drop]
      omega
    have hraised : decryptBytes lib key blob = .error (.raised "ValueError") := by
      unfold decryptBytes
      rw [if_pos hmarked]
      exact if_pos hlength
    have hproduced : ¬ Produced lib key blob := by
      rintro ⟨content, hcontent⟩
      cases hraised.symm.trans (decryptBytes_encryption hlib hcontent)
    cases hraised.symm.trans (hclosed hproduced)
  · intro hlong hproduced
    unfold decryptBytes
    split_ifs with hmarked
    · have hlength : ¬ ((blob.drop 8).take 12).length < 8 := by
        have := hlong hmarked
        rw [List.length_take, List.length_drop]
        omega
      dsimp only
      rw [if_neg hlength]
      cases hanswer : lib.decrypt key ((blob.drop 8).take 12) (blob.drop 20) with
      | none => rfl
      | some plaintext =>
        have hdecrypted : decryptBytes lib key blob = .ok plaintext := by
          unfold decryptBytes
          rw [if_pos hmarked]
          dsimp only
          rw [if_neg hlength, hanswer]
        exact absurd ⟨plaintext, decryptBytes_produced hlib hdecrypted⟩ hproduced
    · rfl

/-- No content is an encryption of itself. -/
theorem not_encryption_self (hlib : lib.Authenticated) : ¬ Encryption lib key content content := by
  rintro ⟨nonce, h⟩
  have hlength := congrArg List.length h
  rw [List.length_append, hlib.tagged] at hlength
  omega

/-- **Encryption round-trips and fails closed** exactly for the contents without the marker, and for
the other bytes that have no marker or 8 bytes of a nonce behind it. -/
theorem encryption_round_trips_iff (hlib : lib.Authenticated)
    (h : files (.artifact a) = some content) (nonce : Nonce) (nonces : List Nonce) :
    RoundTrips lib key a (encryptCalls lib key a (nonce :: nonces) files) content blob ↔
      encryptedMagic.isPrefixOf content = false ∧
        (encryptedMagic.isPrefixOf blob = true → 16 ≤ blob.length) := by
  constructor
  · rintro ⟨⟨stored, hstored, hencryption, -⟩, hclosed⟩
    refine ⟨?_, (failsClosed_iff hlib).mp hclosed⟩
    by_contra hmarked
    rw [encryptCalls_marked (eq_true_of_ne_false hmarked) h] at hstored
    obtain rfl := Option.some.inj hstored
    exact not_encryption_self hlib hencryption
  · rintro ⟨hmarked, hlong⟩
    have hencryption : Encryption lib key content
        (encryptedMagic ++ nonce.bytes ++ lib.encrypt key nonce.bytes content) := ⟨nonce, rfl⟩
    exact ⟨⟨_, stored_encryptCalls h hmarked nonce nonces, hencryption,
      decryptBytes_encryption hlib hencryption⟩, (failsClosed_iff hlib).mpr hlong⟩

/-! ## A cipher -/

/-- A tag of the key and the nonce. -/
def labTag (key nonce : Content) : Content :=
  (key ++ nonce ++ List.replicate 16 0).take 16

theorem labTag_length (key nonce : Content) : (labTag key nonce).length = 16 := by
  unfold labTag
  rw [List.length_take, List.length_append, List.length_replicate]
  omega

def labEncrypt (key nonce content : Content) : Content := content ++ labTag key nonce

def labDecrypt (key nonce ciphertext : Content) : Option Content :=
  if ciphertext = ciphertext.take (ciphertext.length - 16) ++ labTag key nonce then
    some (ciphertext.take (ciphertext.length - 16))
  else none

/-- A library whose cipher tags what it encrypts. -/
def labLibrary : Library where
  sha256 _ := ""
  encode _ := []
  decode _ := none
  tar _ _ := []
  tarFiles _ := none
  dumps _ _ := ""
  countIs _ _ := false
  deriveKey _ := []
  encrypt := labEncrypt
  decrypt := labDecrypt

theorem labEncrypt_length (key nonce content : Content) :
    (labEncrypt key nonce content).length = content.length + 16 := by
  unfold labEncrypt
  rw [List.length_append, labTag_length]

theorem labDecrypt_labEncrypt (key nonce content : Content) :
    labDecrypt key nonce (labEncrypt key nonce content) = some content := by
  have htake : (labEncrypt key nonce content).take
      ((labEncrypt key nonce content).length - 16) = content := by
    rw [labEncrypt_length, Nat.add_sub_cancel]
    exact List.take_left' rfl
  unfold labDecrypt
  rw [htake]
  exact if_pos rfl

theorem authenticated_lab : labLibrary.Authenticated where
  correct key nonce content _ := labDecrypt_labEncrypt key nonce content
  authentic key nonce ciphertext content h := by
    have hanswer : labDecrypt key nonce ciphertext = some content := h
    unfold labDecrypt at hanswer
    split_ifs at hanswer with htag
    obtain rfl := Option.some.inj hanswer
    exact htag
  tagged := labEncrypt_length

def labNonce : Nonce := ⟨List.replicate 12 7, rfl⟩

/-- A set with this dump. -/
def labFiles (content : Content) : SetFiles := Table.set (fun _ => none) (.artifact .dump) content

theorem round_trips_lab : RoundTrips labLibrary [1] .dump
    (encryptCalls labLibrary [1] .dump [labNonce, labNonce] (labFiles [97, 98])) [97, 98]
    (encryptedMagic ++ List.replicate 12 0) :=
  (encryption_round_trips_iff authenticated_lab (Table.set_self ..) labNonce [labNonce]).mpr
    ⟨by decide, by decide⟩

/-- **A content with the marker is stored as it is, and a blob that ends in the nonce is a
`ValueError`.** -/
theorem marked_or_cut :
    ¬ RoundTrips labLibrary [1] .dump
      (encryptCalls labLibrary [1] .dump [labNonce] (labFiles encryptedMagic)) encryptedMagic [] ∧
    ¬ RoundTrips labLibrary [1] .dump
      (encryptCalls labLibrary [1] .dump [labNonce] (labFiles [97])) [97] encryptedMagic := by
  constructor
  · rintro ⟨⟨stored, hstored, hencryption, -⟩, -⟩
    have hkept : encryptCalls labLibrary [1] .dump [labNonce] (labFiles encryptedMagic)
        (.artifact .dump) = some encryptedMagic :=
      encryptCalls_marked (by decide) (Table.set_self ..) [labNonce]
    obtain rfl := Option.some.inj (hkept.symm.trans hstored)
    exact not_encryption_self authenticated_lab hencryption
  · intro h
    have hlong := (failsClosed_iff authenticated_lab).mp h.closed (by decide)
    rw [encryptedMagic_length] at hlong
    exact absurd hlong (by decide)

end ScanPlatform.Dr
