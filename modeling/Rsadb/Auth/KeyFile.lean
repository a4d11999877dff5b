import Rsadb.Auth.HostKey
import Rsadb.Library.Async
import Rsadb.Library.Utf8Slices

/-! The files that keep the identity of the host, `adbkey` and `adbkey.pub`. The
operating system may fail any step of a call, and then leaves what has been
written so far. -/
namespace Rsadb

/-- What the RSA library provides. Its errors are texts. -/
structure RsaCrate (PrivateKey : Type) where
  toPublicKey : PrivateKey → RsaPublicKey
  sign : PrivateKey → Bytes → Result Bytes
  base64 : Bytes → Bytes
  fromPkcs8Pem : Bytes → Except String PrivateKey
  fromPkcs1Pem : Bytes → Except String PrivateKey
  toPkcs1Pem : PrivateKey → Result Bytes

/-- The PEM that the library writes is text, it is PKCS#1 and not PKCS#8, and the library reads the key from it. -/
structure RsaCrate.Faithful {PrivateKey : Type} (crate : RsaCrate PrivateKey) : Prop where
  text : ∀ key pem, crate.toPkcs1Pem key = .ok pem → Utf8.Valid pem
  read : ∀ key pem, crate.toPkcs1Pem key = .ok pem → crate.fromPkcs1Pem pem = .ok key
  distinct : ∀ key pem, crate.toPkcs1Pem key = .ok pem → ∃ reason, crate.fromPkcs8Pem pem = .error reason

/-- A host key with its private half. -/
structure Identity (PrivateKey : Type) where
  privateKey : PrivateKey
  comment : Bytes
  deriving DecidableEq

structure KeyFile where
  content : Bytes
  mode : Nat

/-- The two files of one `KeyPaths`. -/
structure KeyFiles where
  privateFile : Option KeyFile
  publicFile : Option Bytes

/-- How the steps of a call go. A write that fails has written so many bytes. -/
structure Disturbance where
  metadata : Result Unit
  read : Result Unit
  createDir : Result Unit
  openPrivate : Result Unit
  writePrivate : Option (Nat × Error)
  openPublic : Result Unit
  writePublic : Option (Nat × Error)

/-- A call of `load_or_generate`: the comment, the key that would be generated and
how the steps of the call go. -/
structure KeyCall (PrivateKey : Type) where
  comment : Bytes
  generated : Result PrivateKey
  disturbance : Disturbance

variable {PrivateKey : Type}

namespace Identity

/-- The key that the handshake uses. -/
def hostKey (crate : RsaCrate PrivateKey) (key : Identity PrivateKey) : HostKey :=
  ⟨crate.sign key.privateKey, crate.base64, crate.toPublicKey key.privateKey, key.comment⟩

/-- Wrap an existing private key. -/
def fromPrivate (crate : RsaCrate PrivateKey) (privateKey : PrivateKey) (comment : Bytes) :
    Result (Identity PrivateKey) := do
  let _ ← Pubkey.encode (crate.toPublicKey privateKey)
  pure ⟨privateKey, comment⟩

/-- The private key in a PEM, which is PKCS#8 or PKCS#1. -/
def privateIn (crate : RsaCrate PrivateKey) (pem : Bytes) : Result PrivateKey :=
  match crate.fromPkcs8Pem pem with
  | .ok key => .ok key
  | .error pkcs8 =>
      match crate.fromPkcs1Pem pem with
      | .ok key => .ok key
      | .error pkcs1 => .error (.key s!"not PKCS#8 ({pkcs8}) nor PKCS#1 ({pkcs1})")

/-- Parse a PEM private key. -/
def fromPem (crate : RsaCrate PrivateKey) (pem comment : Bytes) : Result (Identity PrivateKey) := do
  let privateKey ← privateIn crate pem
  fromPrivate crate privateKey comment

/-- Serialise the private key as PKCS#1 PEM. -/
def toPem (crate : RsaCrate PrivateKey) (key : Identity PrivateKey) : Result Bytes := crate.toPkcs1Pem key.privateKey

end Identity

namespace KeyFiles

/-- Write all of the data, as far as that goes. -/
def writeAll (fault : Option (Nat × Error)) (data : Bytes) : Result Unit × Bytes :=
  match fault with
  | some (n, e) => (.error e, data.take n)
  | none => (.ok (), data)

/-- The mode that a private file has, or would get. -/
def mode (files : KeyFiles) : Nat := (files.privateFile.map KeyFile.mode).getD 0o600

/-- Truncate or create the private key. A new file is for its owner only, and an
old one keeps its mode. -/
def writePrivate (disturbance : Disturbance) (pem : Bytes) : Async Error KeyFiles Unit := fun files =>
  match disturbance.openPrivate with
  | .error e => (some (.error e), files)
  | .ok () =>
      let written := writeAll disturbance.writePrivate pem
      (some written.1,
        { files with privateFile := some ⟨written.2, files.mode⟩ })

def writePublic (disturbance : Disturbance) (line : Bytes) : Async Error KeyFiles Unit := fun files =>
  match disturbance.openPublic with
  | .error e => (some (.error e), files)
  | .ok () =>
      let written := writeAll disturbance.writePublic line
      (some written.1, { files with publicFile := some written.2 })

/-- The text of the private key. -/
def readToString (disturbance : Disturbance) : Async Error KeyFiles Bytes := fun files =>
  match disturbance.read, files.privateFile with
  | .error e, _ => (some (.error e), files)
  | .ok (), none => (some (.error (.io "No such file or directory (os error 2)")), files)
  | .ok (), some file =>
      match String.fromUTF8? ⟨file.content.toArray⟩ with
      | some _ => (some (.ok file.content), files)
      | none => (some (.error (.io "stream did not contain valid UTF-8")), files)

/-- Load the private key. -/
def readKey (crate : RsaCrate PrivateKey) (disturbance : Disturbance) (comment : Bytes) :
    Async Error KeyFiles (Identity PrivateKey) := do
  let pem ← readToString disturbance
  Async.lift (Identity.fromPem crate pem comment)

/-- Write both files, creating the directory and restricting the private key to the owner. -/
def writeKey (crate : RsaCrate PrivateKey) (disturbance : Disturbance) (key : Identity PrivateKey) :
    Async Error KeyFiles Unit := do
  Async.lift disturbance.createDir
  let pem ← Async.lift (key.toPem crate)
  writePrivate disturbance pem
  let line ← Async.lift (key.hostKey crate).publicKeyLine
  writePublic disturbance (line ++ [10])

/-- Whether the private key is seen to exist. A look that fails sees none. -/
def privateExists (disturbance : Disturbance) (files : KeyFiles) : Bool :=
  disturbance.metadata.isOk && files.privateFile.isSome

/-- Reuse the key if it exists, otherwise generate one and store it. -/
def loadOrGenerate (crate : RsaCrate PrivateKey) (call : KeyCall PrivateKey) :
    Async Error KeyFiles (Identity PrivateKey) := fun files =>
  if privateExists call.disturbance files then readKey crate call.disturbance call.comment files
  else (do
    let privateKey ← Async.lift call.generated
    let key ← Async.lift (Identity.fromPrivate crate privateKey call.comment)
    writeKey crate call.disturbance key
    pure key : Async Error KeyFiles (Identity PrivateKey)) files

/-- Calls one after the other, each of which may fail. -/
def calls (crate : RsaCrate PrivateKey) : List (KeyCall PrivateKey) → KeyFiles →
    List (Option (Result (Identity PrivateKey))) × KeyFiles
  | [], files => ([], files)
  | call :: rest, files =>
      let called := loadOrGenerate crate call files
      let later := calls crate rest called.2
      (called.1 :: later.1, later.2)

/-- The private file is there and holds this key, which can be used. -/
structure Keeps (crate : RsaCrate PrivateKey) (files : KeyFiles) (key : PrivateKey) (file : KeyFile) : Prop where
  there : files.privateFile = some file
  text : Utf8.Valid file.content
  held : Identity.privateIn crate file.content = .ok key
  usable : ∀ comment, Identity.fromPrivate crate key comment = .ok ⟨key, comment⟩

variable {crate : RsaCrate PrivateKey} {files : KeyFiles} {call : KeyCall PrivateKey} {key : Identity PrivateKey}
  {file : KeyFile}

/-- A wrapped key can be wrapped under every comment. -/
theorem fromPrivate_ok {privateKey : PrivateKey} {comment : Bytes}
    (h : Identity.fromPrivate crate privateKey comment = .ok key) :
    key = ⟨privateKey, comment⟩ ∧
      ∀ comment', Identity.fromPrivate crate privateKey comment' = .ok ⟨privateKey, comment'⟩ := by
  unfold Identity.fromPrivate at h ⊢
  cases hEncode : Pubkey.encode (crate.toPublicKey privateKey) with
  | error e =>
      rw [hEncode] at h
      cases h
  | ok encoded =>
      rw [hEncode] at h
      cases h
      exact ⟨rfl, fun _ => rfl⟩

/-- Reading changes nothing, and what is read is in the file. -/
theorem readKey_ok {disturbance : Disturbance} {comment : Bytes} {after : KeyFiles}
    (h : readKey crate disturbance comment files = (some (.ok key), after)) :
    ∃ file, Keeps crate files key.privateKey file := by
  obtain ⟨pem, middle, hRead, hParse⟩ := Async.bind_eq_ok h
  obtain ⟨hKey, -⟩ := Prod.mk.inj hParse
  have hFile : ∃ file, files.privateFile = some file ∧ Utf8.Valid file.content ∧ file.content = pem := by
    unfold readToString at hRead
    split at hRead
    · cases hRead
    · cases hRead
    · rename_i file _ hThere
      split at hRead
      · rename_i text hText
        cases hRead
        exact ⟨file, hThere, Utf8.valid_iff_text.mpr ⟨text, hText⟩, rfl⟩
      · cases hRead
  obtain ⟨file, hThere, hText, rfl⟩ := hFile
  have hPem := Option.some.inj hKey
  unfold Identity.fromPem at hPem
  cases hHeld : Identity.privateIn crate file.content with
  | error e =>
      rw [hHeld] at hPem
      cases hPem
  | ok privateKey =>
      rw [hHeld] at hPem
      obtain ⟨rfl, hUsable⟩ := fromPrivate_ok hPem
      exact ⟨file, hThere, hText, hHeld, hUsable⟩

theorem readKey_snd (disturbance : Disturbance) (comment : Bytes) :
    (readKey crate disturbance comment files).2 = files := by
  have hRead : (readToString disturbance files).2 = files := by
    unfold readToString
    split
    · rfl
    · rfl
    · split <;> rfl
  rcases Async.bind_cases (readToString disturbance) (fun pem => Async.lift (Identity.fromPem crate pem comment)) files
    with hStop | ⟨pem, middle, hOk, hGo⟩
  · exact hStop.trans hRead
  · rw [hOk] at hRead
    exact (congrArg Prod.snd hGo).trans hRead

/-- A kept key is read again, under any comment. -/
theorem readKey_kept {privateKey : PrivateKey} (h : Keeps crate files privateKey file) {disturbance : Disturbance}
    (hRead : disturbance.read = .ok ()) (comment : Bytes) :
    readKey crate disturbance comment files = (some (.ok ⟨privateKey, comment⟩), files) := by
  obtain ⟨text, hText⟩ := Utf8.valid_iff_text.mp h.text
  have hString : readToString disturbance files = (some (.ok file.content), files) := by
    simp only [readToString, hRead, h.there, hText]
  have hPem : Identity.fromPem crate file.content comment = .ok ⟨privateKey, comment⟩ := by
    rw [Identity.fromPem, h.held]
    exact h.usable comment
  rw [readKey, Async.bind_ok hString, hPem]
  rfl

/-- A call that sees a private key leaves both files as they are. -/
theorem loadOrGenerate_found (hThere : files.privateFile = some file) (hSeen : call.disturbance.metadata = .ok ()) :
    loadOrGenerate crate call files = readKey crate call.disturbance call.comment files ∧
      (loadOrGenerate crate call files).2 = files := by
  have hFound : loadOrGenerate crate call files = readKey crate call.disturbance call.comment files := by
    rw [loadOrGenerate, privateExists, hThere, hSeen]
    rfl
  exact ⟨hFound, by rw [hFound, readKey_snd]⟩

/-- A call that sees no private key makes one. -/
theorem loadOrGenerate_unseen (h : privateExists call.disturbance files = false) :
    loadOrGenerate crate call files = (Async.lift call.generated >>= fun privateKey =>
      Async.lift (Identity.fromPrivate crate privateKey call.comment) >>= fun key =>
        writeKey crate call.disturbance key >>= fun _ => pure key) files := by
  rw [loadOrGenerate, h]
  rfl

theorem mode_eq (h : files.privateFile = some file) : file.mode = files.mode := by
  rw [mode, h]
  rfl

/-- What writing a new key leaves of it: a new file is for its owner only, an old one
keeps its mode, and it has the whole key if the writing has succeeded. -/
theorem writeKey_new (disturbance : Disturbance) (key : Identity PrivateKey) :
    (writeKey crate disturbance key files).2.mode = files.mode ∧
    ((writeKey crate disturbance key files).1 = some (.ok ()) → ∃ pem, key.toPem crate = .ok pem ∧
      (writeKey crate disturbance key files).2.privateFile = some ⟨pem, files.mode⟩) := by
  have hPublic : ∀ line before, (writePublic disturbance line before).2.privateFile = before.privateFile := by
    intro line before
    unfold writePublic
    split <;> rfl
  unfold writeKey
  cases hDir : disturbance.createDir with
  | error e =>
      rw [Async.bind_error (Async.lift_apply _ _)]
      simp
  | ok created =>
      rw [Async.bind_ok (Async.lift_apply _ _)]
      cases hPem : key.toPem crate with
      | error e =>
          rw [Async.bind_error (Async.lift_apply _ _)]
          simp
      | ok pem =>
          rw [Async.bind_ok (Async.lift_apply _ _)]
          have hPrivate : (writePrivate disturbance pem files =
                (some (.ok ()), { files with privateFile := some ⟨pem, files.mode⟩ })) ∨
              ∃ e after, writePrivate disturbance pem files = (some (.error e), after) ∧
                after.mode = files.mode := by
            unfold writePrivate
            split
            · exact Or.inr ⟨_, _, rfl, rfl⟩
            · unfold writeAll
              cases disturbance.writePrivate with
              | none => exact Or.inl rfl
              | some fault => exact Or.inr ⟨_, _, rfl, rfl⟩
          rcases hPrivate with hWritten | ⟨e, after, hFailed, hMode⟩
          · rw [Async.bind_ok hWritten]
            rcases Async.bind_cases (Async.lift (key.hostKey crate).publicKeyLine)
                (fun line => writePublic disturbance (line ++ [10]))
                { files with privateFile := some ⟨pem, files.mode⟩ } with hStop | ⟨line, middle, hLine, hGo⟩
            · rw [hStop]
              exact ⟨rfl, fun _ => ⟨pem, rfl, rfl⟩⟩
            · obtain ⟨-, rfl⟩ := Prod.mk.inj hLine
              rw [hGo, mode, hPublic]
              exact ⟨rfl, fun _ => ⟨pem, rfl, rfl⟩⟩
          · rw [Async.bind_error hFailed]
            exact ⟨hMode, by simp⟩

/-- A call that sees no private key and gives one has generated it and written it. -/
theorem loadOrGenerate_new (hUnseen : privateExists call.disturbance files = false)
    (h : (loadOrGenerate crate call files).1 = some (.ok key)) :
    call.generated = .ok key.privateKey ∧
      Identity.fromPrivate crate key.privateKey call.comment = .ok key ∧ ∃ pem, key.toPem crate = .ok pem ∧
      (loadOrGenerate crate call files).2.privateFile = some ⟨pem, files.mode⟩ := by
  have hNew := @loadOrGenerate_unseen _ crate files call hUnseen
  obtain ⟨privateKey, first, hGenerated, hRest⟩ := Async.bind_eq_ok (Prod.ext (hNew ▸ h) rfl)
  obtain ⟨made, second, hMade, hRest⟩ := Async.bind_eq_ok hRest
  obtain ⟨_, third, hWritten, hPure⟩ := Async.bind_eq_ok hRest
  obtain ⟨hKey, rfl⟩ := Prod.mk.inj hGenerated
  obtain ⟨hPrivate, rfl⟩ := Prod.mk.inj hMade
  obtain ⟨hSame, hAfter⟩ := Prod.mk.inj hPure
  obtain rfl : made = key := Except.ok.inj (Option.some.inj hSame)
  have hMade := Option.some.inj hPrivate
  obtain ⟨rfl, -⟩ := fromPrivate_ok hMade
  obtain ⟨pem, hPem, hFile⟩ := (@writeKey_new _ crate files call.disturbance ⟨privateKey, call.comment⟩).2
    (congrArg Prod.fst hWritten)
  rw [hWritten] at hFile
  refine ⟨Option.some.inj hKey, hMade, pem, hPem, ?_⟩
  rw [hNew, ← hFile]
  exact congrArg KeyFiles.privateFile hAfter.symm

/-- After a call that gives a key the private file holds just this key. -/
theorem loadOrGenerate_ok (hCrate : crate.Faithful)
    (h : (loadOrGenerate crate call files).1 = some (.ok key)) :
    ∃ file, Keeps crate (loadOrGenerate crate call files).2 key.privateKey file := by
  cases hExists : privateExists call.disturbance files with
  | true =>
      have hFound : loadOrGenerate crate call files = readKey crate call.disturbance call.comment files := by
        rw [loadOrGenerate, hExists]
        rfl
      rw [hFound] at h ⊢
      rw [readKey_snd]
      exact readKey_ok (Prod.ext h rfl)
  | false =>
      obtain ⟨-, hMade, pem, hPem, hFile⟩ := loadOrGenerate_new hExists h
      obtain ⟨-, hUsable⟩ := fromPrivate_ok hMade
      refine ⟨⟨pem, files.mode⟩, hFile, hCrate.text _ _ hPem, ?_, hUsable⟩
      obtain ⟨reason, hOther⟩ := hCrate.distinct _ _ hPem
      rw [Identity.privateIn, hOther, hCrate.read _ _ hPem]

/-- A private file that a call makes is for its owner only, and one that is there keeps its mode. -/
theorem loadOrGenerate_mode (call : KeyCall PrivateKey) :
    (loadOrGenerate crate call files).2.mode = files.mode := by
  cases hExists : privateExists call.disturbance files with
  | true =>
      rw [loadOrGenerate, hExists]
      exact congrArg mode (readKey_snd _ _)
  | false =>
      rw [loadOrGenerate_unseen hExists]
      rcases Async.bind_cases (Async.lift call.generated) _ files with hStop | ⟨privateKey, first, hFirst, hGo⟩
      · rw [hStop]
        rfl
      · obtain ⟨-, rfl⟩ := Prod.mk.inj hFirst
        rw [hGo]
        rcases Async.bind_cases (Async.lift (Identity.fromPrivate crate privateKey call.comment)) _ files
          with hStop | ⟨key, second, hSecond, hGo⟩
        · rw [hStop]
          rfl
        · obtain ⟨-, rfl⟩ := Prod.mk.inj hSecond
          rw [hGo]
          have hMode := (@writeKey_new _ crate files call.disturbance key).1
          rcases Async.bind_cases (writeKey crate call.disturbance key) (fun _ => pure key) files
            with hStop | ⟨_, third, hThird, hGo⟩
          · rw [hStop]
            exact hMode
          · rw [hThird] at hMode
            rw [hGo]
            exact hMode

/-- Once the private file is there, no call that sees it changes either file. -/
theorem calls_found (h : files.privateFile = some file) {list : List (KeyCall PrivateKey)}
    (hSeen : ∀ call ∈ list, call.disturbance.metadata = .ok ()) : (calls crate list files).2 = files := by
  induction list with
  | nil => rfl
  | cons call rest ih =>
      rw [calls, (loadOrGenerate_found h (hSeen call List.mem_cons_self)).2]
      exact ih fun call hMember => hSeen call (List.mem_cons_of_mem _ hMember)

theorem calls_mode (list : List (KeyCall PrivateKey)) : (calls crate list files).2.mode = files.mode := by
  induction list generalizing files with
  | nil => rfl
  | cons call rest ih => exact ih.trans (loadOrGenerate_mode call)

/-- What a call has given is what the private file holds at the end. -/
theorem calls_ok (hCrate : crate.Faithful) {list : List (KeyCall PrivateKey)}
    (hSeen : ∀ call ∈ list, call.disturbance.metadata = .ok ())
    (h : some (.ok key) ∈ (calls crate list files).1) :
    ∃ file, Keeps crate (calls crate list files).2 key.privateKey file := by
  induction list generalizing files with
  | nil => cases h
  | cons call rest ih =>
      have hLaterSeen := fun call hMember => hSeen call (List.mem_cons_of_mem _ hMember)
      rcases List.mem_cons.mp h with hHere | hLater
      · obtain ⟨file, hKeeps⟩ := loadOrGenerate_ok hCrate hHere.symm
        refine ⟨file, ?_⟩
        rw [calls]
        dsimp only
        rw [calls_found hKeeps.there hLaterSeen]
        exact hKeeps
      · exact ih hLaterSeen hLater

end KeyFiles

/-- The identity of the host is made once and never changes, as long as a private
file that is there is seen. Whatever other steps of whichever calls fail, such a
file is never touched again, nor is the public one then; all calls that give a key
give the same one; and when one has, every later call that can see and read the
file gives it again, whatever would be generated then. A look that fails takes the
file for missing: if the call gives a key, this is a new one, and it has replaced
what the file held. In any case the private file keeps its mode, and one that the
calls make is for its owner only. -/
theorem identity_stays {crate : RsaCrate PrivateKey} (hCrate : crate.Faithful) (list : List (KeyCall PrivateKey))
    (files : KeyFiles) :
    ((∀ call ∈ list, call.disturbance.metadata = .ok ()) →
      (∀ file, files.privateFile = some file → (KeyFiles.calls crate list files).2 = files) ∧
      (∀ first second : Identity PrivateKey, some (.ok first) ∈ (KeyFiles.calls crate list files).1 →
        some (.ok second) ∈ (KeyFiles.calls crate list files).1 → first.privateKey = second.privateKey) ∧
      ∀ key : Identity PrivateKey, some (.ok key) ∈ (KeyFiles.calls crate list files).1 →
        ∀ call : KeyCall PrivateKey, call.disturbance.metadata = .ok () → call.disturbance.read = .ok () →
          KeyFiles.loadOrGenerate crate call (KeyFiles.calls crate list files).2 =
            (some (.ok ⟨key.privateKey, call.comment⟩), (KeyFiles.calls crate list files).2)) ∧
    (∀ (call : KeyCall PrivateKey) (e : Error) (key : Identity PrivateKey), call.disturbance.metadata = .error e →
      (KeyFiles.loadOrGenerate crate call files).1 = some (.ok key) → call.generated = .ok key.privateKey ∧
        ∃ pem, key.toPem crate = .ok pem ∧
          (KeyFiles.loadOrGenerate crate call files).2.privateFile = some ⟨pem, files.mode⟩) ∧
    ∀ file, (KeyFiles.calls crate list files).2.privateFile = some file →
      file.mode = files.mode ∧ (files.privateFile = none → file.mode = 0o600) := by
  refine ⟨fun hSeen => ⟨?_, ?_, ?_⟩, ?_, ?_⟩
  · intro file hThere
    exact KeyFiles.calls_found hThere hSeen
  · intro first second hFirst hSecond
    obtain ⟨file, hKeeps⟩ := KeyFiles.calls_ok hCrate hSeen hFirst
    obtain ⟨other, hOther⟩ := KeyFiles.calls_ok hCrate hSeen hSecond
    obtain rfl : file = other := Option.some.inj (hKeeps.there.symm.trans hOther.there)
    exact Except.ok.inj (hKeeps.held.symm.trans hOther.held)
  · intro key hKey call hLook hRead
    obtain ⟨file, hKeeps⟩ := KeyFiles.calls_ok hCrate hSeen hKey
    rw [(KeyFiles.loadOrGenerate_found hKeeps.there hLook).1]
    exact KeyFiles.readKey_kept hKeeps hRead call.comment
  · intro call e key hLook hGiven
    have hUnseen : KeyFiles.privateExists call.disturbance files = false := by
      rw [KeyFiles.privateExists, hLook]
      rfl
    obtain ⟨hKey, -, hFile⟩ := KeyFiles.loadOrGenerate_new hUnseen hGiven
    exact ⟨hKey, hFile⟩
  · intro file hThere
    have hMode := (KeyFiles.mode_eq hThere).trans (KeyFiles.calls_mode list)
    refine ⟨hMode, fun hNone => ?_⟩
    rw [hMode, KeyFiles.mode, hNone]
    rfl

/-- A library with two keys. -/
def twoKeys : RsaCrate Bool where
  toPublicKey key := ⟨2 ^ 2047 + if key then 3 else 1, 65537⟩
  sign _ _ := .ok []
  base64 bytes := bytes
  fromPkcs8Pem _ := .error "not PKCS#8"
  fromPkcs1Pem pem :=
    if pem = ascii "RSA 1" then .ok true
    else if pem = ascii "RSA 0" then .ok false
    else .error "not PKCS#1"
  toPkcs1Pem key := .ok (if key then ascii "RSA 1" else ascii "RSA 0")

theorem twoKeys_faithful : twoKeys.Faithful := by
  constructor
  · rintro (_ | _) pem ⟨⟩
    · exact ⟨"RSA 0", by decide⟩
    · exact ⟨"RSA 1", by decide⟩
  · rintro (_ | _) pem ⟨⟩
    · decide
    · decide
  · intro key pem _
    exact ⟨_, rfl⟩

/-- All steps go well. -/
def undisturbed : Disturbance := ⟨.ok (), .ok (), .ok (), .ok (), none, .ok (), none⟩

/-- The first call has written the private key only. Another key would be generated
then, but the first one stays, until a look for it fails. -/
theorem identity_stays_half_written :
    KeyFiles.loadOrGenerate twoKeys ⟨ascii "c", .ok true, undisturbed⟩ (KeyFiles.calls twoKeys [
        ⟨ascii "a", .ok false, { undisturbed with openPublic := .error (.io "disk full") }⟩,
        ⟨ascii "b", .ok true, undisturbed⟩] ⟨none, none⟩).2 =
      (some (.ok ⟨false, ascii "c"⟩), (KeyFiles.calls twoKeys [
        ⟨ascii "a", .ok false, { undisturbed with openPublic := .error (.io "disk full") }⟩,
        ⟨ascii "b", .ok true, undisturbed⟩] ⟨none, none⟩).2) ∧
    ∃ pem, twoKeys.toPkcs1Pem true = .ok pem ∧ (KeyFiles.loadOrGenerate twoKeys
        ⟨ascii "d", .ok true, { undisturbed with metadata := .error (.io "too many links") }⟩
        ⟨some ⟨ascii "RSA 0", 0o644⟩, none⟩).2.privateFile = some ⟨pem, 0o644⟩ :=
  ⟨((identity_stays twoKeys_faithful _ _).1 (by decide)).2.2 ⟨false, ascii "b"⟩ (by decide +kernel) _ rfl rfl,
    ((identity_stays twoKeys_faithful [] _).2.1 _ _ ⟨true, ascii "d"⟩ rfl (by decide +kernel)).2⟩

end Rsadb
