import TransactionLookup.Proofs.Store.Writes
import TransactionLookup.Store.Seed
import Mathlib.Tactic.ByContra

/-!
# The identity of versions

Every store that comes about is sound: a record is stored under its own hash, a hash has one entry at
most, and a serial number belongs to one entry and is below the next one to be given out.

From this and from what one write can do it follows that a version which has left the store never
comes back: one that is there at two moments has been there, under one hash, at all moments between
them (`get?_between`). So a commit that finds the serial number that its copy was made from finds
a hash under which nothing has happened in the meantime.
-/

namespace TransactionLookup.Store

/-- What holds of every store that comes about. -/
structure Sound (s : Store) : Prop where
  /-- A record is stored under its own hash. -/
  keyed : ∀ {hash version}, s.get? hash = some version → version.record.hash = hash
  /-- A hash has one entry at most. -/
  single : (s.entries.map Prod.fst).Nodup
  /-- Serial numbers that are in use have been given out. -/
  numbered : ∀ {hash version}, s.get? hash = some version → version.serial < s.nextSerial
  /-- A serial number belongs to one hash. -/
  apart : ∀ {hash hash' version version'}, s.get? hash = some version →
    s.get? hash' = some version' → version.serial = version'.serial → hash = hash'

/-- The stores that are there before anything is written. -/
inductive Initial : Store → Prop
  | new : Initial empty
  | records {records : List Record} {s : Store} : ofRecords records = .ok s → Initial s
  | seed {path : String} {entry : SeedEntry} {s : Store} : load path entry = .ok s → Initial s

/-- Whether a store comes about by writes. -/
def Reached (s : Store) : Prop :=
  ∃ (start : Store) (writes : List Write), start.Initial ∧ s = start.writeAll writes

/-! ## What is found after a write -/

theorem get?_publish_cases {s : Store} {hash other : TxHash} {r : Record} {version : Version}
    (found : (s.publish hash r).get? other = some version) :
    (other = hash ∧ version = ⟨r, s.nextSerial⟩) ∨ (other ≠ hash ∧ s.get? other = some version) := by
  by_cases same : other = hash
  · subst other
    rw [get?_publish_self] at found
    cases found
    exact .inl ⟨rfl, rfl⟩
  · rw [get?_publish_of_ne same] at found
    exact .inr ⟨same, found⟩

theorem get?_erase_cases {s : Store} {hash other : TxHash} {version : Version}
    (found : (s.erase hash).get? other = some version) :
    other ≠ hash ∧ s.get? other = some version := by
  by_cases same : other = hash
  · subst other
    rw [get?_erase_self] at found
    cases found
  · rw [get?_erase_of_ne same] at found
    exact ⟨same, found⟩

theorem nodup_keys_without (hash : TxHash) {entries : List (TxHash × Version)}
    (single : (entries.map Prod.fst).Nodup) : ((without hash entries).map Prod.fst).Nodup :=
  single.sublist (List.filter_sublist.map Prod.fst)

theorem not_mem_keys_without (hash : TxHash) (entries : List (TxHash × Version)) :
    hash ∉ (without hash entries).map Prod.fst := by
  simp [without]

/-! ## Soundness is kept -/

theorem Sound.publish {s : Store} (sound : s.Sound) {hash : TxHash} {r : Record}
    (own : r.hash = hash) : (s.publish hash r).Sound where
  keyed found := by
    rcases get?_publish_cases found with ⟨rfl, rfl⟩ | ⟨-, before⟩
    · exact own
    · exact sound.keyed before
  single := List.nodup_cons.mpr
    ⟨not_mem_keys_without hash s.entries, nodup_keys_without hash sound.single⟩
  numbered found := by
    rcases get?_publish_cases found with ⟨-, rfl⟩ | ⟨-, before⟩
    · exact Nat.lt_succ_self _
    · exact Nat.lt_succ_of_lt (sound.numbered before)
  apart found found' equal := by
    -- the new serial number is above all that are in use
    rcases get?_publish_cases found with ⟨rfl, rfl⟩ | ⟨-, before⟩ <;>
      rcases get?_publish_cases found' with ⟨rfl, rfl⟩ | ⟨-, before'⟩
    · rfl
    · have := sound.numbered before'
      simp only at equal
      omega
    · have := sound.numbered before
      simp only at equal
      omega
    · exact sound.apart before before' equal

theorem Sound.erase {s : Store} (sound : s.Sound) (hash : TxHash) : (s.erase hash).Sound where
  keyed found := sound.keyed (get?_erase_cases found).2
  single := nodup_keys_without hash sound.single
  numbered found := sound.numbered (get?_erase_cases found).2
  apart found found' equal :=
    sound.apart (get?_erase_cases found).2 (get?_erase_cases found').2 equal

theorem Sound.write {s : Store} (sound : s.Sound) (w : Write) : (s.write w).Sound := by
  rcases write_cases s w with same | ⟨r, own, published⟩ | ⟨-, erased⟩
  · rw [same]
    exact sound
  · rw [published]
    exact sound.publish own
  · rw [erased]
    exact sound.erase w.key

theorem Sound.writeAll {s : Store} (sound : s.Sound) (writes : List Write) :
    (s.writeAll writes).Sound := by
  induction writes generalizing s with
  | nil => exact sound
  | cons w writes ih => exact ih (sound.write w)

/-! ## The stores at the start -/

theorem firstRepeated?_eq_none_iff (seen : List TxHash) (records : List Record) :
    firstRepeated? seen records = none ↔
      (∀ r ∈ records, r.hash ∉ seen) ∧ (records.map Record.hash).Nodup := by
  induction records generalizing seen with
  | nil => simp [firstRepeated?]
  | cons r records ih =>
    by_cases old : r.hash ∈ seen
    · simp [firstRepeated?, old]
    · simp only [firstRepeated?, if_neg old, ih, List.mem_cons, not_or, List.map_cons,
        List.nodup_cons, List.mem_map, forall_eq_or_imp]
      -- a later hash is not the first one exactly if the first one is not a later hash
      grind

theorem map_fst_numbered (serial : Nat) (records : List Record) :
    (numbered serial records).map Prod.fst = records.map Record.hash := by
  induction records generalizing serial with
  | nil => rfl
  | cons r records ih => simp [numbered, ih]

theorem lookup_numbered {serial : Nat} {records : List Record} {hash : TxHash} {version : Version}
    (found : (numbered serial records).lookup hash = some version) :
    version.record.hash = hash ∧ serial ≤ version.serial ∧
      version.serial < serial + records.length := by
  induction records generalizing serial with
  | nil => cases found
  | cons r records ih =>
    rw [numbered, List.lookup_cons] at found
    cases same : hash == r.hash with
    | true =>
      simp only [same, Option.some.injEq] at found
      subst found
      exact ⟨(eq_of_beq same).symm, Nat.le_refl _, by simp⟩
    | false =>
      simp only [same] at found
      have := ih found
      simp only [List.length_cons]
      exact ⟨this.1, by omega, by omega⟩

theorem lookup_numbered_apart {serial : Nat} {records : List Record} {hash hash' : TxHash}
    {version version' : Version} (found : (numbered serial records).lookup hash = some version)
    (found' : (numbered serial records).lookup hash' = some version')
    (equal : version.serial = version'.serial) : hash = hash' := by
  induction records generalizing serial with
  | nil => cases found
  | cons r records ih =>
    rw [numbered, List.lookup_cons] at found found'
    cases same : hash == r.hash <;> cases same' : hash' == r.hash <;>
      simp only [same, same', Option.some.injEq] at found found'
    · exact ih found found'
    · -- the first entry's number is below those of the rest
      have := lookup_numbered found
      subst found'
      simp only at equal
      omega
    · have := lookup_numbered found'
      subst found
      simp only at equal
      omega
    · exact (eq_of_beq same).trans (eq_of_beq same').symm

theorem sound_ofRecords {records : List Record} {s : Store} (made : ofRecords records = .ok s) :
    s.Sound := by
  unfold ofRecords at made
  split at made
  · cases made
  next unrepeated =>
    cases made
    refine ⟨fun found => (lookup_numbered found).1, ?_, ?_, lookup_numbered_apart⟩
    · rw [map_fst_numbered]
      exact ((firstRepeated?_eq_none_iff [] records).mp unrepeated).2
    · intro hash version found
      simpa using (lookup_numbered found).2.2

theorem sound_empty : empty.Sound := sound_ofRecords (rfl : ofRecords [] = .ok empty)

theorem sound_load {path : String} {entry : SeedEntry} {s : Store}
    (loaded : load path entry = .ok s) : s.Sound := by
  unfold load at loaded
  split at loaded
  · cases loaded
  · split at loaded
    · cases loaded
    · exact sound_ofRecords loaded

theorem Initial.sound {s : Store} (initial : s.Initial) : s.Sound := by
  cases initial with
  | new => exact sound_empty
  | records made => exact sound_ofRecords made
  | seed loaded => exact sound_load loaded

theorem Initial.reached {s : Store} (initial : s.Initial) : s.Reached := ⟨s, [], initial, rfl⟩

theorem Reached.sound {s : Store} (reached : s.Reached) : s.Sound := by
  obtain ⟨start, writes, initial, rfl⟩ := reached
  exact initial.sound.writeAll writes

theorem Reached.writeAll {s : Store} (reached : s.Reached) (writes : List Write) :
    (s.writeAll writes).Reached := by
  obtain ⟨start, before, initial, rfl⟩ := reached
  exact ⟨start, before ++ writes, initial, (writeAll_append start before writes).symm⟩

/-! ## Versions do not come back -/

theorem Sound.same_version {s : Store} (sound : s.Sound) {hash hash' : TxHash}
    {version version' : Version} (found : s.get? hash = some version)
    (found' : s.get? hash' = some version') (equal : version.serial = version'.serial) :
    hash = hash' ∧ version = version' := by
  obtain rfl := sound.apart found found' equal
  rw [found] at found'
  exact ⟨rfl, Option.some.inj found'⟩

theorem Sound.hash_eq {s : Store} (sound : s.Sound) {hash : TxHash} {r : Record}
    (stored : s.record? hash = some r) : r.hash = hash := by
  obtain ⟨version, there, rfl⟩ := Option.map_eq_some_iff.mp stored
  exact sound.keyed there

/-- A version after a write that is older than the write was there before it. -/
theorem get?_of_get?_write {s : Store} {w : Write} {hash : TxHash} {version : Version}
    (found : (s.write w).get? hash = some version) (old : version.serial < s.nextSerial) :
    s.get? hash = some version := by
  by_cases own : hash = w.key
  · subst own
    rcases get?_write_key s w found with before | ⟨new, -⟩
    · exact before
    · -- what the write has published is not older than the write
      omega
  · rwa [get?_write_of_ne own] at found

/-- A version after some writes that is older than all of them was there before them. -/
theorem get?_of_get?_writeAll {s : Store} {writes : List Write} {hash : TxHash} {version : Version}
    (found : (s.writeAll writes).get? hash = some version) (old : version.serial < s.nextSerial) :
    s.get? hash = some version := by
  induction writes generalizing s with
  | nil => exact found
  | cons w writes ih =>
    -- the later writes leave it there, and then the first one does
    have later := Nat.lt_of_lt_of_le old (nextSerial_write_le s w)
    exact get?_of_get?_write (ih found later) old

/-- A version that is there before and after some writes is there all the time, under one hash. -/
theorem get?_between {s : Store} (sound : s.Sound) {before after : List Write}
    {hash hash' : TxHash} {version version' : Version} (first : s.get? hash = some version)
    (last : (s.writeAll (before ++ after)).get? hash' = some version')
    (equal : version.serial = version'.serial) :
    hash = hash' ∧ version = version' ∧ (s.writeAll before).get? hash = some version := by
  have old : version'.serial < s.nextSerial := equal ▸ sound.numbered first
  obtain ⟨rfl, rfl⟩ := sound.same_version first (get?_of_get?_writeAll last old) equal
  rw [writeAll_append] at last
  have later := Nat.lt_of_lt_of_le old (nextSerial_writeAll_le s before)
  exact ⟨rfl, rfl, get?_of_get?_writeAll last later⟩

/-- A write changes what is found under a hash exactly if it is admitted and the hash is its key. -/
theorem get?_write_ne_iff {s : Store} (sound : s.Sound) (w : Write) (hash : TxHash) :
    (s.write w).get? hash ≠ s.get? hash ↔ w.key = hash ∧ s.Admits w := by
  constructor
  · intro changed
    by_cases own : hash = w.key
    · refine ⟨own.symm, ?_⟩
      by_contra refused
      exact changed (by rw [write_of_not_admits refused])
    · exact absurd (get?_write_of_ne own) changed
  · rintro ⟨rfl, admitted⟩ same
    rcases write_of_admits admitted with ⟨r, -, published⟩ | ⟨there, erased⟩
    · -- a serial number that is in use cannot be the next one
      rw [published, get?_publish_self] at same
      exact Nat.lt_irrefl _ (sound.numbered same.symm)
    · rw [erased, get?_erase_self] at same
      exact there same.symm

/-- A version is left in its place by some writes exactly if none of them is admitted under its hash. -/
theorem get?_writeAll_eq_iff {s : Store} (sound : s.Sound) {hash : TxHash} {version : Version}
    (there : s.get? hash = some version) (writes : List Write) :
    (s.writeAll writes).get? hash = some version ↔ s.Untouched hash writes := by
  constructor
  · rintro kept before w after rfl own admitted
    -- at the end it is there, so it was there just before `w` and just after, which `w` has changed
    have changed := (get?_write_ne_iff (sound.writeAll before) w hash).mpr ⟨own, admitted⟩
    have at_before := (get?_between sound there kept rfl).2.2
    have split : before ++ w :: after = (before ++ [w]) ++ after := by simp
    rw [split] at kept
    have at_after := (get?_between sound there kept rfl).2.2
    rw [writeAll_append] at at_after
    exact changed (at_after.trans at_before.symm)
  · intro untouched
    induction writes generalizing s with
    | nil => exact there
    | cons w writes ih =>
      have kept : (s.write w).get? hash = s.get? hash := by
        by_contra changed
        obtain ⟨own, admitted⟩ := (get?_write_ne_iff sound w hash).mp changed
        exact untouched [] w writes rfl own admitted
      apply ih (sound.write w) (kept.trans there)
      intro before w' after equal
      exact untouched (w :: before) w' after (by rw [equal]; rfl)

/-! ## Snapshots -/

/-- Whether a version was found under a hash at some moment up to now. Only that version, under that
hash, can have its serial number since. -/
structure Snapshot (s : Store) (hash : TxHash) (base : Version) : Prop where
  past : base.serial < s.nextSerial
  same : ∀ {other version}, s.get? other = some version → version.serial = base.serial →
    other = hash ∧ version = base

theorem Sound.snapshot {s : Store} (sound : s.Sound) {hash : TxHash} {base : Version}
    (found : s.get? hash = some base) : s.Snapshot hash base :=
  ⟨sound.numbered found, fun other equal => sound.same_version other found equal⟩

theorem Snapshot.write {s : Store} {hash : TxHash} {base : Version} (taken : s.Snapshot hash base)
    (w : Write) : (s.write w).Snapshot hash base where
  past := Nat.lt_of_lt_of_le taken.past (nextSerial_write_le s w)
  same found equal := taken.same (get?_of_get?_write found (equal ▸ taken.past)) equal

theorem Snapshot.writeAll {s : Store} {hash : TxHash} {base : Version}
    (taken : s.Snapshot hash base) (writes : List Write) :
    (s.writeAll writes).Snapshot hash base := by
  induction writes generalizing s with
  | nil => exact taken
  | cons w writes ih => exact ih (taken.write w)

/-- A copy of what is stored is published. -/
theorem commit_of_get? {s : Store} {hash : TxHash} {base : Version} (there : s.get? hash = some base)
    (next : Record) :
    s.commit hash base next = .published (s.publish hash { next with hash }) := by
  simp only [commit, there, if_true]

/-- What becomes of a commit depends on nothing but whether the snapshot is still what is stored. -/
theorem Snapshot.commit_cases {s : Store} {hash : TxHash} {base : Version}
    (taken : s.Snapshot hash base) (next : Record) :
    (s.get? hash = some base ∧
      s.commit hash base next = .published (s.publish hash { next with hash })) ∨
    (s.get? hash = none ∧ s.commit hash base next = .gone) ∨
    ∃ latest, latest ≠ base ∧ s.get? hash = some latest ∧
      s.commit hash base next = .superseded latest := by
  cases found : s.get? hash with
  | none => exact .inr (.inl ⟨rfl, by simp only [commit, found]⟩)
  | some latest =>
    by_cases equal : latest.serial = base.serial
    · -- the commit compares serial numbers, and here an equal number means the same version
      obtain ⟨-, rfl⟩ := taken.same found equal
      exact .inl ⟨rfl, commit_of_get? found next⟩
    · have other : latest ≠ base := fun same => equal (congrArg Version.serial same)
      exact .inr (.inr ⟨latest, other, rfl, by simp only [commit, found, if_neg equal]⟩)

end TransactionLookup.Store
