import TransactionLookup.Proofs.Store.Ledger

/-!
# Stores side by side

Two stores with the same contents need not have given out the same serial numbers. Writes that match
and are admitted on both sides or on neither leave them with the same contents, and leave versions in
their places under the same hashes (`Abreast.write`). So a commit of a copy that was made on both sides
comes to the same on both (`Abreast.commit`).
-/

namespace TransactionLookup

/-- The record that a write publishes when it is admitted, if it publishes one. -/
def Write.record? : Write → Option Record
  | .insert r | .upsert r => some r
  | .remove _ => none
  | .commit hash _ next => some { next with hash }

def Write.isCommit : Write → Bool
  | .commit _ _ _ => true
  | _ => false

namespace Store

/-! ## One store -/

theorem ledger_write_of_admits {s : Store} {w : Write} (admitted : s.Admits w) :
    (s.write w).ledger = match w.record? with
      | some r => s.ledger.insert w.key r
      | none => s.ledger.erase w.key := by
  cases w with
  | insert r =>
    have free : s.get? r.hash = none := admitted
    simp only [write, insert, free, ledger_publish, Write.record?, Write.key]
  | upsert r => exact ledger_publish s r.hash r
  | remove hash => exact ledger_erase s hash
  | commit hash base next =>
    obtain ⟨latest, there, same⟩ := admitted
    simp only [write, commit, there, if_pos same, ledger_publish, Write.record?, Write.key]

/-- Whether the version under a hash is the same in two stores. -/
def Keeps (s t : Store) (hash : TxHash) : Prop :=
  ∃ version, s.get? hash = some version ∧ t.get? hash = some version

theorem keeps_self_iff {s : Store} {hash : TxHash} : s.Keeps s hash ↔ s.get? hash ≠ none := by
  constructor
  · rintro ⟨version, there, -⟩
    exact Option.ne_none_iff_exists'.mpr ⟨version, there⟩
  · intro present
    obtain ⟨version, there⟩ := Option.ne_none_iff_exists'.mp present
    exact ⟨version, there, there⟩

theorem keeps_write_iff {s : Store} (sound : s.Sound) (w : Write) (hash : TxHash) :
    s.Keeps (s.write w) hash ↔ s.get? hash ≠ none ∧ ¬ (w.key = hash ∧ s.Admits w) := by
  rw [← get?_write_ne_iff sound w hash, ← keeps_self_iff, not_not]
  constructor
  · rintro ⟨version, before, after⟩
    exact ⟨⟨version, before, before⟩, after.trans before.symm⟩
  · rintro ⟨⟨version, before, -⟩, same⟩
    exact ⟨version, before, same.trans before⟩

/-- A version is kept by writes exactly if it is kept up to any moment among them and from then on. -/
theorem keeps_append_iff {s : Store} (sound : s.Sound) (before after : List Write) (hash : TxHash) :
    s.Keeps (s.writeAll (before ++ after)) hash ↔
      s.Keeps (s.writeAll before) hash ∧
        (s.writeAll before).Keeps (s.writeAll (before ++ after)) hash := by
  constructor
  · rintro ⟨version, first, last⟩
    -- a version that has left the store does not come back
    have between := (get?_between sound first last rfl).2.2
    exact ⟨⟨version, first, between⟩, version, between, last⟩
  · rintro ⟨⟨version, first, between⟩, version', between', last⟩
    obtain rfl : version = version' := Option.some.inj (between.symm.trans between')
    exact ⟨version, first, last⟩

/-! ## Two stores -/

/-- Whether two stores that may come about have the same contents. -/
structure Mirrors (s s' : Store) : Prop where
  sound : s.Sound
  sound' : s'.Sound
  contents : s.ledger = s'.ledger

variable {s s' t t' u u' : Store} {hash : TxHash}

theorem Mirrors.record?_eq (mirrors : s.Mirrors s') (hash : TxHash) :
    s.record? hash = s'.record? hash := by
  rw [← lookup_ledger, mirrors.contents, lookup_ledger]

theorem Mirrors.get?_eq_none_iff (mirrors : s.Mirrors s') :
    s.get? hash = none ↔ s'.get? hash = none := by
  have same := mirrors.record?_eq hash
  rw [record?, record?] at same
  rw [← Option.map_eq_none_iff, same, Option.map_eq_none_iff]

theorem Mirrors.record_eq (mirrors : s.Mirrors s') {version version' : Version}
    (there : s.get? hash = some version) (there' : s'.get? hash = some version') :
    version.record = version'.record := by
  have same := mirrors.record?_eq hash
  rw [record?, record?, there, there'] at same
  exact Option.some.inj same

/-- Whether writes to two stores of the same contents have led to stores of the same contents, and have
kept the versions under the same hashes. -/
structure Abreast (s s' t t' : Store) : Prop where
  start : s.Mirrors s'
  mirrors : t.Mirrors t'
  written : ∃ writes, t = s.writeAll writes
  written' : ∃ writes, t' = s'.writeAll writes
  keeps : ∀ hash, s.Keeps t hash ↔ s'.Keeps t' hash

theorem Mirrors.abreast (mirrors : s.Mirrors s') : Abreast s s' s s' where
  start := mirrors
  mirrors := mirrors
  written := ⟨[], rfl⟩
  written' := ⟨[], rfl⟩
  keeps hash := by
    rw [keeps_self_iff, keeps_self_iff]
    exact not_congr mirrors.get?_eq_none_iff

theorem Abreast.trans (first : Abreast s s' t t') (second : Abreast t t' u u') :
    Abreast s s' u u' := by
  obtain ⟨before, rfl⟩ := first.written
  obtain ⟨before', rfl⟩ := first.written'
  obtain ⟨after, rfl⟩ := second.written
  obtain ⟨after', rfl⟩ := second.written'
  refine ⟨first.start, second.mirrors, ⟨before ++ after, (writeAll_append s before after).symm⟩,
    ⟨before' ++ after', (writeAll_append s' before' after').symm⟩, ?_⟩
  intro hash
  have later := second.keeps hash
  rw [← writeAll_append, ← writeAll_append] at later ⊢
  rw [keeps_append_iff first.start.sound, keeps_append_iff first.start.sound', first.keeps hash,
    later]

/-- Writes that match, admitted on both sides or on neither. -/
theorem Abreast.write (mirrors : s.Mirrors s') {w w' : Write} (key : w.key = w'.key)
    (record : w.record? = w'.record?) (admits : s.Admits w ↔ s'.Admits w') :
    Abreast s s' (s.write w) (s'.write w') where
  start := mirrors
  mirrors := by
    refine ⟨mirrors.sound.write w, mirrors.sound'.write w', ?_⟩
    by_cases admitted : s.Admits w
    · rw [ledger_write_of_admits admitted, ledger_write_of_admits (admits.mp admitted), key, record,
        mirrors.contents]
    · rw [write_of_not_admits admitted, write_of_not_admits (mt admits.mpr admitted)]
      exact mirrors.contents
  written := ⟨[w], rfl⟩
  written' := ⟨[w'], rfl⟩
  keeps hash := by
    rw [keeps_write_iff mirrors.sound, keeps_write_iff mirrors.sound', key, admits, ne_eq,
      mirrors.get?_eq_none_iff]

/-- A write that compares no versions is admitted on both sides or on neither. -/
theorem Mirrors.abreast_write (mirrors : s.Mirrors s') {w : Write} (plain : w.isCommit = false) :
    Abreast s s' (s.write w) (s'.write w) := by
  refine .write mirrors rfl rfl ?_
  cases w with
  | insert r => exact mirrors.get?_eq_none_iff
  | upsert r => exact Iff.rfl
  | remove hash => exact not_congr mirrors.get?_eq_none_iff
  | commit hash base next => cases plain

/-- Whether two commits come to the same: both copies are published, both have lost their record, or
both have been overtaken. -/
inductive EndsAlike (t t' : Store) : Commit → Commit → Prop
  | published {u u' : Store} (abreast : Abreast t t' u u') :
      EndsAlike t t' (.published u) (.published u')
  | gone : EndsAlike t t' .gone .gone
  | superseded (latest latest' : Version) :
      EndsAlike t t' (.superseded latest) (.superseded latest')

/-- A copy that was made on both sides has the same end on both. -/
theorem Abreast.commit (abreast : Abreast s s' t t') {base base' : Version}
    (there : s.get? hash = some base) (there' : s'.get? hash = some base') (next : Record) :
    EndsAlike t t' (t.commit hash base next) (t'.commit hash base' next) := by
  obtain ⟨writes, rfl⟩ := abreast.written
  obtain ⟨writes', rfl⟩ := abreast.written'
  have taken := (abreast.start.sound.snapshot there).writeAll writes
  have taken' := (abreast.start.sound'.snapshot there').writeAll writes'
  rcases taken.commit_cases next with ⟨kept, published⟩ | ⟨absent, gone⟩ | ⟨latest, other, found, late⟩
  · -- the copy is still of what is stored, so it is on the other side
    obtain ⟨version, first, kept'⟩ := (abreast.keeps hash).mp ⟨base, there, kept⟩
    obtain rfl : base' = version := Option.some.inj (there'.symm.trans first)
    have published' := commit_of_get? kept' next
    have both : Abreast _ _ ((s.writeAll writes).write (.commit hash base next))
        ((s'.writeAll writes').write (.commit hash base' next)) :=
      .write abreast.mirrors rfl rfl ⟨fun _ => ⟨base', kept', rfl⟩, fun _ => ⟨base, kept, rfl⟩⟩
    simp only [Store.write, published, published'] at both
    rw [published, published']
    exact .published both
  · have absent' := abreast.mirrors.get?_eq_none_iff.mp absent
    have gone' : (s'.writeAll writes').commit hash base' next = .gone := by
      simp only [Store.commit, absent']
    rw [gone, gone']
    exact .gone
  · rcases taken'.commit_cases next with ⟨kept', -⟩ | ⟨absent', -⟩ | ⟨latest', -, -, late'⟩
    · -- were it kept on the other side, it would be here
      obtain ⟨version, first, kept⟩ := (abreast.keeps hash).mpr ⟨base', there', kept'⟩
      obtain rfl : base = version := Option.some.inj (there.symm.trans first)
      exact absurd (Option.some.inj (found.symm.trans kept)) other
    · rw [abreast.mirrors.get?_eq_none_iff.mpr absent'] at found
      cases found
    · rw [late, late']
      exact .superseded latest latest'

end Store

end TransactionLookup
