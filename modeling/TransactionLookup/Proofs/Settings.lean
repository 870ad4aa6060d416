import TransactionLookup.Proofs.Decimal.Padded
import TransactionLookup.Settings
import Mathlib.Data.List.Induction
import Mathlib.Data.Nat.Digits.Defs

/-!
# Settings from variables

Each setting comes from one variable and from no other. A port is taken from a text of decimal
digits, with a plus sign before them or not and however many zeros at their front, if the number
fits 16 bits; any other text leaves the port as it is by default (`variables_decide`). An address is
written so that its last colon stands before the port, and so it can be taken apart again, whatever
the host is.
-/

namespace TransactionLookup

/-! ## Decimal numbers -/

/-- Whether digits stand for a number, by the places that they have. -/
structure Denotes (ds : List Char) (n : Nat) : Prop where
  present : ds ≠ []
  digits : ∀ d ∈ ds, d.isDigit = true
  value : Nat.ofDigits 10 (ds.reverse.map Decimal.digitValue) = n

variable {ds : List Char} {n : Nat}

theorem Decimal.ofDigits_reverse (ds : List Char) :
    Nat.ofDigits 10 (ds.reverse.map digitValue) = value ds := by
  induction ds using List.reverseRecOn with
  | nil => rfl
  | append_singleton ds d ih =>
    rw [List.reverse_append, List.reverse_singleton, List.singleton_append, List.map_cons,
      Nat.ofDigits_cons, ih, value, value, valueFrom_append]
    simp [valueFrom, Nat.add_comm]

theorem denotes_iff : Denotes ds n ↔
    ds ≠ [] ∧ (∀ d ∈ ds, d.isDigit = true) ∧ Decimal.value ds = n := by
  rw [← Decimal.ofDigits_reverse]
  constructor
  · rintro ⟨present, digits, value⟩
    exact ⟨present, digits, value⟩
  · rintro ⟨present, digits, value⟩
    exact ⟨present, digits, value⟩

theorem denotes_digits (n : Nat) : Denotes (Decimal.digits n) n :=
  denotes_iff.mpr ⟨Decimal.digits_ne_nil n, fun _ member => Decimal.isDigit_of_mem_digits member,
    Decimal.value_digits n⟩

/-! ## Ports -/

/-- Whether a text is a number as a port is given. -/
def SpellsPort (text : List Char) (n : Nat) : Prop :=
  ∃ sign ds, sign ∈ [[], ['+']] ∧ Denotes ds n ∧ text = sign ++ ds

variable {text : List Char} {port : UInt16}

/-- A text with a sign has no other reading, since a sign is no digit. -/
theorem readPort?_sign (ds : List Char) : readPort? ('+' :: ds) =
    if ds ≠ [] ∧ ds.all Char.isDigit ∧ Decimal.value ds ≤ 65535 then
      some (UInt16.ofNat (Decimal.value ds))
    else none := rfl

theorem readPort?_of_ne {c : Char} (other : c ≠ '+') (rest : List Char) :
    readPort? (c :: rest) =
      if (c :: rest).all Char.isDigit ∧ Decimal.value (c :: rest) ≤ 65535 then
        some (UInt16.ofNat (Decimal.value (c :: rest)))
      else none := by
  unfold readPort?
  split
  next same => exact absurd (List.cons.inj same).1 other
  · simp

theorem toNat_ofNat_of_le (small : n ≤ 65535) : (UInt16.ofNat n).toNat = n := by
  rw [UInt16.toNat_ofNat']
  exact Nat.mod_eq_of_lt (Nat.lt_succ_of_le small)

/-- What the digits of a port come to: their number, if it is small enough. -/
theorem port_eq_some_iff :
    (if ds ≠ [] ∧ ds.all Char.isDigit ∧ Decimal.value ds ≤ 65535 then
      some (UInt16.ofNat (Decimal.value ds)) else none) = some port ↔ Denotes ds port.toNat := by
  rw [denotes_iff]
  constructor
  · intro read
    split at read
    next fits =>
      obtain ⟨present, digits, small⟩ := fits
      obtain rfl := Option.some.inj read
      exact ⟨present, List.all_eq_true.mp digits, (toNat_ofNat_of_le small).symm⟩
    · cases read
  · rintro ⟨present, digits, value⟩
    have small : port.toNat ≤ 65535 := Nat.le_of_lt_succ port.toNat_lt
    rw [if_pos ⟨present, List.all_eq_true.mpr digits, value ▸ small⟩, value, UInt16.ofNat_toNat]

theorem readPort?_eq_some_iff : readPort? text = some port ↔ SpellsPort text port.toNat := by
  constructor
  · intro read
    cases text with
    | nil => cases read
    | cons c rest =>
      by_cases sign : c = '+'
      · subst sign
        rw [readPort?_sign] at read
        exact ⟨['+'], rest, by simp, port_eq_some_iff.mp read, rfl⟩
      · rw [readPort?_of_ne sign] at read
        refine ⟨[], c :: rest, by simp, port_eq_some_iff.mp ?_, rfl⟩
        simpa using read
  · rintro ⟨sign, ds, isSign, denotes, rfl⟩
    have read := port_eq_some_iff.mpr denotes
    have either : sign = [] ∨ sign = ['+'] := by simpa using isSign
    rcases either with rfl | rfl
    · cases ds with
      | nil => exact absurd rfl denotes.present
      | cons d ds =>
        have digit := denotes.digits d List.mem_cons_self
        have other : d ≠ '+' := by
          rintro rfl
          exact absurd digit (by decide)
        rw [List.nil_append, readPort?_of_ne other]
        simpa using read
    · exact read

theorem readPort?_eq_none_iff : readPort? text = none ↔ ∀ n, SpellsPort text n → 65535 < n := by
  rw [Option.eq_none_iff_forall_ne_some]
  constructor
  · intro refused n spells
    by_contra small
    -- a smaller number would be that of some port
    have fits := toNat_ofNat_of_le (Nat.not_lt.mp small)
    exact refused (UInt16.ofNat n) (readPort?_eq_some_iff.mpr (fits.symm ▸ spells))
  · intro large port read
    have := large port.toNat (readPort?_eq_some_iff.mp read)
    have := port.toNat_lt
    omega

/-! ## Variables -/

theorem variableText?_eq_some_iff {value : Option (List UInt8)} {s : String} :
    variableText? value = some s ↔ value = some (Text.utf8 s.toList) := by
  rw [variableText?, Option.bind_eq_some_iff]
  constructor
  · rintro ⟨bytes, rfl, read⟩
    rw [Text.ofUtf8?_eq_some_iff.mp read]
  · rintro rfl
    exact ⟨_, rfl, Text.ofUtf8?_eq_some_iff.mpr rfl⟩

theorem variableText?_eq_none_iff {value : Option (List UInt8)} :
    variableText? value = none ↔ ∀ s : String, value ≠ some (Text.utf8 s.toList) := by
  rw [Option.eq_none_iff_forall_ne_some]
  exact forall_congr' fun s => not_congr variableText?_eq_some_iff

namespace Settings

variable {env : Environment}

/-- A setting that is a text is that of its variable, or else the default. -/
theorem getD_variableText? (value : Option (List UInt8)) (base : String) :
    (∀ s : String, value = some (Text.utf8 s.toList) → (variableText? value).getD base = s) ∧
      ((∀ s : String, value ≠ some (Text.utf8 s.toList)) →
        (variableText? value).getD base = base) := by
  constructor
  · intro s set
    rw [variableText?_eq_some_iff.mpr set, Option.getD_some]
  · intro unset
    rw [variableText?_eq_none_iff.mpr unset, Option.getD_none]

/-- The port is that of its variable, if that gives one. -/
theorem port_ofEnvironment_of_spells {s : String} (set : env.port = some (Text.utf8 s.toList))
    (spells : SpellsPort s.toList n) (small : n ≤ 65535) :
    (ofEnvironment env).port.toNat = n := by
  have fits := toNat_ofNat_of_le small
  have read : readPort? s.toList = some (UInt16.ofNat n) :=
    readPort?_eq_some_iff.mpr (fits.symm ▸ spells)
  simp only [ofEnvironment, variableText?_eq_some_iff.mpr set, Option.bind_some, read,
    Option.getD_some, fits]

theorem port_ofEnvironment_of_refused
    (refused : ∀ s : String, env.port = some (Text.utf8 s.toList) →
      ∀ n, SpellsPort s.toList n → 65535 < n) : (ofEnvironment env).port = 3000 := by
  have unread : ((variableText? env.port).bind fun s => readPort? s.toList) = none := by
    rw [Option.bind_eq_none_iff]
    intro s set
    exact readPort?_eq_none_iff.mpr (refused s (variableText?_eq_some_iff.mp set))
  simp only [ofEnvironment, unread, Option.getD_none]

theorem port_ofEnvironment_iff : (ofEnvironment env).port.toNat = n ↔
    (∃ s : String, env.port = some (Text.utf8 s.toList) ∧ SpellsPort s.toList n ∧ n ≤ 65535) ∨
      n = 3000 ∧ ∀ s : String, env.port = some (Text.utf8 s.toList) →
        ∀ m, SpellsPort s.toList m → 65535 < m := by
  constructor
  · rintro rfl
    by_cases given : ∃ (s : String) (m : Nat), env.port = some (Text.utf8 s.toList) ∧
      SpellsPort s.toList m ∧ m ≤ 65535
    · obtain ⟨s, m, set, spells, small⟩ := given
      have port := port_ofEnvironment_of_spells set spells small
      exact .inl ⟨s, set, port.symm ▸ spells, port.symm ▸ small⟩
    · have refused : ∀ s : String, env.port = some (Text.utf8 s.toList) →
          ∀ m, SpellsPort s.toList m → 65535 < m := by
        intro s set m spells
        by_contra small
        exact given ⟨s, m, set, spells, Nat.not_lt.mp small⟩
      exact .inr ⟨by rw [port_ofEnvironment_of_refused refused]; rfl, refused⟩
  · rintro (⟨s, set, spells, small⟩ | ⟨rfl, refused⟩)
    · exact port_ofEnvironment_of_spells set spells small
    · rw [port_ofEnvironment_of_refused refused]
      rfl

theorem seedFile_ofEnvironment_iff {path : String} : (ofEnvironment env).seedFile = some path ↔
    env.seedFile = some (Text.utf8 path.toList) ∧ path ≠ "" := by
  simp only [ofEnvironment, Option.filter_eq_some_iff, variableText?_eq_some_iff,
    decide_eq_true_eq]

/-! ## Addresses -/

/-- Whether a text comes apart at the last of its marks. -/
def PartsAtLast (mark : Char) (text before after : List Char) : Prop :=
  text = before ++ mark :: after ∧ mark ∉ after

theorem PartsAtLast.unique {mark : Char} {before after before' after' : List Char}
    (parts : PartsAtLast mark text before after) (again : PartsAtLast mark text before' after') :
    before = before' ∧ after = after' := by
  obtain ⟨rfl, last⟩ := parts
  obtain ⟨same, last'⟩ := again
  rcases List.append_eq_append_iff.mp same with ⟨more, rfl, rest⟩ | ⟨more, rfl, rest⟩
  · cases more with
    | nil =>
      obtain ⟨-, rfl⟩ := List.cons.inj rest
      exact ⟨(List.append_nil before).symm, rfl⟩
    | cons c more =>
      -- the mark of the second parting would stand behind that of the first
      obtain ⟨-, rfl⟩ := List.cons.inj rest
      exact absurd (by simp) last
  · cases more with
    | nil =>
      obtain ⟨-, rfl⟩ := List.cons.inj rest
      exact ⟨List.append_nil before', rfl⟩
    | cons c more =>
      obtain ⟨-, rfl⟩ := List.cons.inj rest
      exact absurd (by simp) last'

/-- The last colon of an address stands before the digits of its port. -/
theorem partsAtLast_address (s : Settings) :
    PartsAtLast ':' s.address.toList s.host.toList (Decimal.digits s.port.toNat) := by
  constructor
  · simp [address]
  · intro colon
    exact absurd (Decimal.isDigit_of_mem_digits colon) (by decide)

/-- The digits of a port are read as that port. -/
theorem readPort?_digits (port : UInt16) : readPort? (Decimal.digits port.toNat) = some port :=
  readPort?_eq_some_iff.mpr ⟨[], _, by simp, denotes_digits port.toNat, rfl⟩

theorem parts_of_address {s : Settings} {before after : List Char}
    (parts : PartsAtLast ':' s.address.toList before after) :
    String.ofList before = s.host ∧ readPort? after = some s.port := by
  obtain ⟨rfl, rfl⟩ := parts.unique s.partsAtLast_address
  exact ⟨String.ofList_toList, readPort?_digits s.port⟩

/-- An address has its parts from one host and one port. -/
theorem address_injective {s t : Settings} (same : s.address = t.address) :
    s.host = t.host ∧ s.port = t.port := by
  obtain ⟨host, port⟩ := parts_of_address (same ▸ t.partsAtLast_address)
  rw [String.ofList_toList] at host
  rw [readPort?_digits, Option.some.injEq] at port
  exact ⟨host.symm, port.symm⟩

/-! ## The main statement -/

/-- Each variable decides its own setting alone, whatever bytes it holds: the host and the log level
are its text, the port is the number that it spells within 16 bits, and the seed file is its text
unless that is empty. The address of any settings has the port behind its last colon, in decimal
without leading zeros, and host and port are read off it again. -/
theorem variables_decide (env : Environment) :
    (∀ other : Environment,
      (other.host = env.host → (ofEnvironment other).host = (ofEnvironment env).host) ∧
      (other.port = env.port → (ofEnvironment other).port = (ofEnvironment env).port) ∧
      (other.logLevel = env.logLevel →
        (ofEnvironment other).logLevel = (ofEnvironment env).logLevel) ∧
      (other.seedFile = env.seedFile →
        (ofEnvironment other).seedFile = (ofEnvironment env).seedFile)) ∧
    (∀ s : String, env.host = some (Text.utf8 s.toList) → (ofEnvironment env).host = s) ∧
    ((∀ s : String, env.host ≠ some (Text.utf8 s.toList)) →
      (ofEnvironment env).host = "0.0.0.0") ∧
    (∀ s : String, env.logLevel = some (Text.utf8 s.toList) → (ofEnvironment env).logLevel = s) ∧
    ((∀ s : String, env.logLevel ≠ some (Text.utf8 s.toList)) →
      (ofEnvironment env).logLevel = "info") ∧
    (∀ n, (ofEnvironment env).port.toNat = n ↔
      (∃ s : String, env.port = some (Text.utf8 s.toList) ∧ SpellsPort s.toList n ∧ n ≤ 65535) ∨
        n = 3000 ∧ ∀ s : String, env.port = some (Text.utf8 s.toList) →
          ∀ m, SpellsPort s.toList m → 65535 < m) ∧
    (∀ path, (ofEnvironment env).seedFile = some path ↔
      env.seedFile = some (Text.utf8 path.toList) ∧ path ≠ "") ∧
    ∀ s : Settings,
      (∃ before after, PartsAtLast ':' s.address.toList before after ∧
        Denotes after s.port.toNat ∧ (after.head? = some '0' → after = ['0'])) ∧
      (∀ before after, PartsAtLast ':' s.address.toList before after →
        String.ofList before = s.host ∧ readPort? after = some s.port) ∧
      ∀ t : Settings, s.address = t.address → s.host = t.host ∧ s.port = t.port := by
  obtain ⟨host, noHost⟩ := getD_variableText? env.host "0.0.0.0"
  obtain ⟨level, noLevel⟩ := getD_variableText? env.logLevel "info"
  refine ⟨?_, host, noHost, level, noLevel, fun n => port_ofEnvironment_iff,
    fun path => seedFile_ofEnvironment_iff, fun s => ⟨?_, ?_, fun t => address_injective⟩⟩
  · intro other
    refine ⟨?_, ?_, ?_, ?_⟩ <;> intro same <;> simp only [ofEnvironment, same]
  · refine ⟨_, _, s.partsAtLast_address, denotes_digits s.port.toNat, ?_⟩
    intro leading
    cases written : Decimal.digits s.port.toNat with
    | nil => exact absurd written (Decimal.digits_ne_nil _)
    | cons d ds =>
      rw [written, List.head?_cons, Option.some.injEq] at leading
      subst leading
      rw [(Decimal.eq_zero_of_digits written).2]
  · intro before after parts
    exact parts_of_address parts

/-- A host with colons, a port with a sign and zeros in front, a log level that is no text and a
seed file without a name; and with the same host a port that is too large. -/
theorem variables_decide_colons :
    let env : Environment :=
      { host := some [0x3A, 0x3A, 0x31], port := some [0x2B, 0x30, 0x30, 0x38, 0x30]
        logLevel := some [0xFF], seedFile := some [] }
    let other : Environment := { host := env.host, port := some [0x36, 0x35, 0x35, 0x33, 0x36] }
    let s := ofEnvironment env
    s.host = "::1" ∧ s.port.toNat = 80 ∧ s.logLevel = "info" ∧ s.seedFile ≠ some "" ∧
      (ofEnvironment other).host = s.host ∧ (ofEnvironment other).port.toNat = 3000 ∧
      (∃ before after, PartsAtLast ':' s.address.toList before after ∧
        String.ofList before = s.host ∧ readPort? after = some s.port) := by
  intro env other s
  obtain ⟨own, host, -, -, level, port, seed, address⟩ := variables_decide env
  obtain ⟨-, -, -, -, -, port', -, -⟩ := variables_decide other
  have spells : SpellsPort "+0080".toList 80 :=
    ⟨['+'], "0080".toList, by simp, denotes_iff.mpr ⟨by simp, List.all_eq_true.mp rfl, rfl⟩, rfl⟩
  have level_unset : ∀ t : String, env.logLevel ≠ some (Text.utf8 t.toList) :=
    variableText?_eq_none_iff.mp (by decide +kernel)
  have large : ∀ t : String, other.port = some (Text.utf8 t.toList) →
      ∀ m, SpellsPort t.toList m → 65535 < m := by
    intro t set
    have text := variableText?_eq_some_iff.mpr set
    have read : variableText? other.port = some "65536" := by decide +kernel
    rw [read, Option.some.injEq] at text
    subst text
    exact readPort?_eq_none_iff.mp (by decide)
  obtain ⟨before, after, parts, -⟩ := (address s).1
  refine ⟨host "::1" (by decide +kernel),
    (port 80).mpr (.inl ⟨"+0080", by decide +kernel, spells, by decide⟩),
    level level_unset, ?_, (own other).1 rfl, (port' 3000).mpr (.inr ⟨rfl, large⟩),
    before, after, parts, (address s).2.1 before after parts⟩
  intro empty
  exact ((seed "").mp empty).2 rfl

end Settings

end TransactionLookup
