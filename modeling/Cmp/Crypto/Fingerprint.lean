import Cmp.Crypto.Primitives

/-! Safety numbers: `crypto::fingerprint`. SHA-512 is a parameter. -/

namespace Cmp.Crypto

/-- SHA-512. -/
abbrev Sha512 := Bytes → List.Vector UInt8 64

/-- Number of SHA-512 iterations per user digest. -/
def ITERATIONS : Nat := 5200

/-- Version byte of the first hash input. -/
def VERSION : UInt8 := 0x00

/-- A 60-digit safety number. -/
structure Fingerprint where
  digits : List.Vector (Fin 10) 60
  deriving DecidableEq

/-- Five bytes from `offset` on as a number, and its last five decimal digits. -/
def digitGroup (hash : Bytes) (offset : Nat) : List (Fin 10) :=
  let byte := fun i => (hash.getD (offset + i) 0).toNat
  let rem := ((((byte 0 * 256 + byte 1) * 256 + byte 2) * 256 + byte 3) * 256 + byte 4) % 100000
  [Fin.ofNat 10 (rem / 10000), Fin.ofNat 10 (rem / 1000), Fin.ofNat 10 (rem / 100),
    Fin.ofNat 10 (rem / 10), Fin.ofNat 10 rem]

def utf8Bytes (text : String) : Bytes := text.toUTF8.data.toList

/-- One digest: the version in front of the first input, the hash so far in front of the others. -/
def iteratedDigest (sha512 : Sha512) (userId : String) (identityKey : Key32) :
    List.Vector UInt8 64 :=
  (fun hash => sha512 (hash.toList ++ identityKey.toList ++ utf8Bytes userId))^[ITERATIONS - 1]
    (sha512 (VERSION :: identityKey.toList ++ utf8Bytes userId))

def iteratedHash (sha512 : Sha512) (userId : String) (identityKey : Key32) :
    List.Vector (Fin 10) 30 :=
  let hash := (iteratedDigest sha512 userId identityKey).toList
  ⟨(List.range 6).flatMap fun group => digitGroup hash (group * 5), rfl⟩

namespace Fingerprint

def halves (first second : List.Vector (Fin 10) 30) : Fingerprint :=
  ⟨⟨first.toList ++ second.toList, by simp⟩⟩

/-- The pairs are sorted, so that both sides get the same number. -/
def compute (sha512 : Sha512) (userA : String) (keyA : Key32) (userB : String) (keyB : Key32) :
    Fingerprint :=
  if utf8Bytes userA < utf8Bytes userB ∨
      utf8Bytes userA = utf8Bytes userB ∧ keyA.toList ≤ keyB.toList then
    halves (iteratedHash sha512 userA keyA) (iteratedHash sha512 userB keyB)
  else
    halves (iteratedHash sha512 userB keyB) (iteratedHash sha512 userA keyA)

theorem utf8Bytes_injective : Function.Injective utf8Bytes := fun _ _ h =>
  String.toByteArray_inj.mp (ByteArray.ext (Array.toList_inj.mp h))

/-- Both sides get the same number. -/
theorem compute_comm (sha512 : Sha512) (userA : String) (keyA : Key32) (userB : String)
    (keyB : Key32) :
    compute sha512 userA keyA userB keyB = compute sha512 userB keyB userA keyA := by
  unfold compute
  split <;> split
  · next hab hba =>
    rcases hab with hab | ⟨huser, hle⟩
    · rcases hba with hba | ⟨huser, -⟩
      · exact absurd hab (List.lt_asymm hba)
      · exact absurd (huser ▸ hab) (List.lt_irrefl _)
    · have hle' := hba.elim (fun h => absurd (huser ▸ h) (List.lt_irrefl _)) And.right
      rw [utf8Bytes_injective huser, List.Vector.eq _ _ (List.le_antisymm hle hle')]
  · rfl
  · rfl
  · next hab hba =>
    obtain ⟨hlt, hkey⟩ := not_or.mp hab
    obtain ⟨hlt', hkey'⟩ := not_or.mp hba
    have huser := List.le_antisymm hlt' hlt
    rcases List.le_total keyA.toList keyB.toList with hle | hle
    · exact absurd ⟨huser, hle⟩ hkey
    · exact absurd ⟨huser.symm, hle⟩ hkey'

def digitChar (d : Fin 10) : Char := Char.ofNat (48 + d.val)

/-- Twelve groups of five digits with a blank between two groups. -/
def displayGrouped (fp : Fingerprint) : String :=
  String.ofList (fp.digits.toList.zipIdx.flatMap fun (d, i) =>
    if 0 < i ∧ i % 5 = 0 then [' ', digitChar d] else [digitChar d])

end Fingerprint

end Cmp.Crypto
