import TransactionLookup.Proofs.Store.Ledger

/-!
# Renumbered stores

What is done under some hashes comes to the same whatever else has been published before, except for the
serial numbers: those given out from a moment on are greater by the number of the other publications.
Under these hashes the two stores have the same records in versions that can be told apart alike, so a
commit that is refused in the one is refused in the other.
-/

namespace TransactionLookup

/-- A version in a store in which the serial numbers from `start` on are greater by `shift`. -/
def Version.renumber (start shift : Nat) (version : Version) : Version :=
  { version with
    serial := if version.serial < start then version.serial else version.serial + shift }

namespace Version

variable {start shift : Nat} {version other : Version}

@[simp] theorem record_renumber (start shift : Nat) (version : Version) :
    (version.renumber start shift).record = version.record := rfl

theorem renumber_of_lt (old : version.serial < start) : version.renumber start shift = version := by
  simp only [renumber, if_pos old]

theorem renumber_of_le (r : Record) {serial : Nat} (new : start ≤ serial) :
    renumber start shift ⟨r, serial⟩ = ⟨r, serial + shift⟩ := by
  simp only [renumber, if_neg (Nat.not_lt.mpr new)]

/-- Versions that can be told apart still can be. -/
theorem serial_renumber_eq_iff :
    (version.renumber start shift).serial = (other.renumber start shift).serial ↔
      version.serial = other.serial := by
  simp only [renumber]
  split <;> split <;> omega

end Version

namespace Store

/-- Whether the same is stored under some hashes in two stores, the versions of the second one being
renumbered. -/
structure Renumbered (start shift : Nat) (hashes : Set TxHash) (s s' : Store) : Prop where
  started : start ≤ s.nextSerial
  next : s'.nextSerial = s.nextSerial + shift
  found : ∀ hash ∈ hashes, s'.get? hash = (s.get? hash).map (Version.renumber start shift)

variable {start shift : Nat} {hashes : Set TxHash} {s s' : Store} {hash : TxHash} {r : Record}

/-- What is published under other hashes does no more than that. -/
theorem Sound.renumbered (sound : s.Sound) (later : s.nextSerial ≤ s'.nextSerial)
    (same : ∀ hash ∈ hashes, s'.get? hash = s.get? hash) :
    Renumbered s.nextSerial (s'.nextSerial - s.nextSerial) hashes s s' where
  started := Nat.le_refl _
  next := by omega
  found hash member := by
    rw [same hash member]
    cases there : s.get? hash with
    | none => rfl
    | some version => rw [Option.map_some, Version.renumber_of_lt (sound.numbered there)]

namespace Renumbered

variable (renumbered : Renumbered start shift hashes s s') (member : hash ∈ hashes)

include renumbered member

theorem get?_eq_none_iff : s'.get? hash = none ↔ s.get? hash = none := by
  rw [renumbered.found hash member, Option.map_eq_none_iff]

theorem record?_eq : s'.record? hash = s.record? hash := by
  rw [record?, record?, renumbered.found hash member, Option.map_map]
  rfl

omit member in
theorem publish (hash : TxHash) (r : Record) :
    Renumbered start shift hashes (s.publish hash r) (s'.publish hash r) where
  started := Nat.le_succ_of_le renumbered.started
  next := by
    have next := renumbered.next
    simp only [Store.publish]
    omega
  found other member := by
    by_cases same : other = hash
    · subst same
      rw [get?_publish_self, get?_publish_self, Option.map_some,
        Version.renumber_of_le r renumbered.started, renumbered.next]
    · rw [get?_publish_of_ne same, get?_publish_of_ne same, renumbered.found other member]

omit member in
theorem erase (hash : TxHash) : Renumbered start shift hashes (s.erase hash) (s'.erase hash) where
  started := renumbered.started
  next := renumbered.next
  found other member := by
    by_cases same : other = hash
    · subst same
      rw [get?_erase_self, get?_erase_self, Option.map_none]
    · rw [get?_erase_of_ne same, get?_erase_of_ne same, renumbered.found other member]

end Renumbered

/-- Whether two commits come to the same: both copies are published, both have lost their record, or both
have been overtaken by the same version. -/
inductive EndsRenumbered (start shift : Nat) (hashes : Set TxHash) : Commit → Commit → Prop
  | published {s s' : Store} (renumbered : Renumbered start shift hashes s s') :
      EndsRenumbered start shift hashes (.published s) (.published s')
  | gone : EndsRenumbered start shift hashes .gone .gone
  | superseded (latest : Version) :
      EndsRenumbered start shift hashes (.superseded latest)
        (.superseded (latest.renumber start shift))

theorem Renumbered.commit (renumbered : Renumbered start shift hashes s s') (member : hash ∈ hashes)
    (base : Version) (next : Record) :
    EndsRenumbered start shift hashes (s.commit hash base next)
      (s'.commit hash (base.renumber start shift) next) := by
  rw [Store.commit, Store.commit, renumbered.found hash member]
  cases s.get? hash with
  | none => exact .gone
  | some latest =>
    simp only [Option.map_some, Version.serial_renumber_eq_iff]
    by_cases same : latest.serial = base.serial
    · rw [if_pos same, if_pos same]
      exact .published (renumbered.publish hash _)
    · rw [if_neg same, if_neg same]
      exact .superseded latest

end Store

end TransactionLookup
