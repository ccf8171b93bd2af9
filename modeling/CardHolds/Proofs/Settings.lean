import CardHolds.Settings
import CardHolds.Proofs.Text.Numeral

/-!
# What the settings are

`numberSettings` lists the settings that are numbers, each with its variable, its bounds and its default,
and `NumberSetting.Takes` is the one rule for all of them: a numeral within the bounds is taken, and in
every other case the default stays.  A text has to pass two checks, one against the type of the number
and one against the least value; whichever it fails, it leaves the same default
(`NumberSetting.takes_numberAtLeastOr`).

Main statement (`Settings.numbers_taken`): every environment makes settings by this rule, each of them
from its own variable alone, and there is always at least one connection.
-/

namespace CardHolds.Settings

/-! ## The rule of a number -/

/-- A setting that is a number. -/
structure NumberSetting where
  /-- The variable that it is read from. -/
  name : String
  least : Nat
  /-- The numbers of its type are below this. -/
  limit : Nat
  default : Nat
  get : Settings → Nat

namespace NumberSetting
variable {setting : NumberSetting} {environment environment' : Environment} {value value' m n : Nat}

/-- The environment sets the variable to a numeral for the number, and the number is within the
bounds. -/
def Given (setting : NumberSetting) (environment : Environment) (n : Nat) : Prop :=
  ∃ text, environment setting.name = some text ∧ Numeral.Denotes text n ∧
    setting.least ≤ n ∧ n < setting.limit

/-- The value is the number that the environment gives, and in every other case the default. -/
structure Takes (setting : NumberSetting) (environment : Environment) (value : Nat) : Prop where
  given : ∀ n, setting.Given environment n → value = n
  otherwise : (¬ ∃ n, setting.Given environment n) → value = setting.default

theorem given_iff : setting.Given environment n ↔
    (environment setting.name).bind (Numeral.read? setting.limit) = some n ∧ setting.least ≤ n := by
  simp only [Given, Option.bind_eq_some_iff, Numeral.read?_eq_some_iff]
  constructor
  · rintro ⟨text, hset, hn, hleast, hlimit⟩
    exact ⟨⟨text, hset, hn, hlimit⟩, hleast⟩
  · rintro ⟨⟨text, hset, hn, hlimit⟩, hleast⟩
    exact ⟨text, hset, hn, hleast, hlimit⟩

theorem Given.unique (hm : setting.Given environment m) (hn : setting.Given environment n) : m = n :=
  Option.some.inj ((given_iff.mp hm).1.symm.trans (given_iff.mp hn).1)

theorem Given.takes (h : setting.Given environment n) : setting.Takes environment n :=
  ⟨fun _ hm => h.unique hm, fun hnone => absurd ⟨n, h⟩ hnone⟩

theorem takes_default (h : ¬ ∃ n, setting.Given environment n) :
    setting.Takes environment setting.default :=
  ⟨fun n hn => absurd ⟨n, hn⟩ h, fun _ => rfl⟩

/-- The other cases: the variable is not set, its text is no numeral, or the number is out of
bounds. -/
theorem not_given_iff : (¬ ∃ n, setting.Given environment n) ↔
    ∀ text, environment setting.name = some text → (¬ ∃ n, Numeral.Denotes text n) ∨
      ∃ n, Numeral.Denotes text n ∧ (n < setting.least ∨ setting.limit ≤ n) := by
  constructor
  · intro hnone text hset
    by_cases hdenotes : ∃ n, Numeral.Denotes text n
    · obtain ⟨n, hn⟩ := hdenotes
      refine Or.inr ⟨n, hn, ?_⟩
      by_contra hbounds
      exact hnone ⟨n, text, hset, hn, by omega⟩
    · exact Or.inl hdenotes
  · rintro hcases ⟨n, text, hset, hn, hleast, hlimit⟩
    rcases hcases text hset with hmalformed | ⟨m, hm, hbounds⟩
    · exact hmalformed ⟨n, hn⟩
    · cases hm.unique hn
      omega

/-- What a setting takes is within its bounds if the default is. -/
theorem Takes.inBounds (h : setting.Takes environment value)
    (hdefault : setting.least ≤ setting.default ∧ setting.default < setting.limit) :
    setting.least ≤ value ∧ value < setting.limit := by
  by_cases hgiven : ∃ n, setting.Given environment n
  · obtain ⟨n, hn⟩ := hgiven
    rw [h.given n hn]
    obtain ⟨-, -, -, hbounds⟩ := hn
    exact hbounds
  · rw [h.otherwise hgiven]
    exact hdefault

/-- No variable but its own matters for what a setting takes. -/
theorem Takes.congr (h : setting.Takes environment value) (h' : setting.Takes environment' value')
    (hname : environment' setting.name = environment setting.name) : value' = value := by
  have hgiven (n : Nat) : setting.Given environment' n ↔ setting.Given environment n := by
    rw [Given, Given, hname]
  by_cases hex : ∃ n, setting.Given environment n
  · obtain ⟨n, hn⟩ := hex
    rw [h.given n hn, h'.given n ((hgiven n).mpr hn)]
  · rw [h.otherwise hex, h'.otherwise fun ⟨n, hn⟩ => hex ⟨n, (hgiven n).mp hn⟩]

/-- A number that is read and lies below the least value is as good as none. -/
theorem takes_numberAtLeastOr (setting : NumberSetting) (environment : Environment) :
    setting.Takes environment
      (numberAtLeastOr environment setting.name setting.limit setting.least setting.default) := by
  unfold numberAtLeastOr numberOr
  cases hread : (environment setting.name).bind (Numeral.read? setting.limit) with
  | none =>
    have hnone : ¬ ∃ n, setting.Given environment n := by
      rintro ⟨n, hn⟩
      cases hread.symm.trans (given_iff.mp hn).1
    simp only [Option.getD_none, ite_self]
    exact takes_default hnone
  | some k =>
    simp only [Option.getD_some]
    split
    · rename_i hlow
      have hnone : ¬ ∃ n, setting.Given environment n := by
        rintro ⟨n, hn⟩
        obtain ⟨hn, hleast⟩ := given_iff.mp hn
        cases hread.symm.trans hn
        omega
      exact takes_default hnone
    · rename_i hleast
      exact (given_iff.mpr ⟨hread, Nat.not_lt.mp hleast⟩).takes

end NumberSetting

/-! ## The settings that an environment makes -/

namespace NumberSetting

def connections : NumberSetting := ⟨"PE_MAX_DB_CONNECTIONS", 1, 2 ^ 32, 5, maxConnections⟩

def retries : NumberSetting := ⟨"PE_BALANCE_UPDATE_RETRIES", 0, 2 ^ 32, 3, balanceRetries⟩

def statementRoom : NumberSetting := ⟨"PE_STATEMENT_STREAM_BUFFER", 0, 2 ^ 64, 1, statementBuffer⟩

def eventRoom : NumberSetting := ⟨"PE_EVENT_BUFFER_SIZE", 0, 2 ^ 64, 25, eventBuffer⟩

end NumberSetting

open NumberSetting

/-- The settings that are numbers. -/
def numberSettings : List NumberSetting := [connections, retries, statementRoom, eventRoom]

theorem default_inBounds :
    ∀ setting ∈ numberSettings, setting.least ≤ setting.default ∧ setting.default < setting.limit := by
  decide

/-- Without a least value the second check does nothing. -/
theorem numberAtLeastOr_zero (environment : Environment) (name : String) (limit default : Nat) :
    numberAtLeastOr environment name limit 0 default = numberOr environment name limit default := by
  rw [numberAtLeastOr]
  exact if_neg (Nat.not_lt_zero _)

theorem takes_ofEnvironment (environment : Environment) :
    ∀ setting ∈ numberSettings, setting.Takes environment (setting.get (ofEnvironment environment)) := by
  intro setting hsetting
  have hget : setting.get (ofEnvironment environment) =
      numberAtLeastOr environment setting.name setting.limit setting.least setting.default := by
    simp only [numberSettings, List.mem_cons, List.not_mem_nil, or_false] at hsetting
    rcases hsetting with rfl | rfl | rfl | rfl
    · rfl
    all_goals exact (numberAtLeastOr_zero _ _ _ _).symm
  rw [hget]
  exact setting.takes_numberAtLeastOr environment

/-- **Reading the settings never fails**: every number that an environment gives is taken, all else
leaves the default, no setting depends on the variable of another one, and there is a connection. -/
theorem numbers_taken (environment : Environment) :
    (∀ setting ∈ numberSettings, setting.Takes environment (setting.get (ofEnvironment environment)) ∧
      ∀ environment' : Environment, environment' setting.name = environment setting.name →
        setting.get (ofEnvironment environment') = setting.get (ofEnvironment environment)) ∧
    (ofEnvironment environment).ledgerUrl =
      (environment "PE_LEDGER_DATABASE_URL").getD "sqlite://data/ledger_store.db" ∧
    (ofEnvironment environment).paymentUrl =
      (environment "PE_PAYMENT_DATABASE_URL").getD "sqlite://data/payment_store.db" ∧
    1 ≤ (ofEnvironment environment).maxConnections := by
  have htakes := takes_ofEnvironment environment
  have hconnections : connections ∈ numberSettings := List.mem_cons_self
  refine ⟨fun setting hsetting => ⟨htakes setting hsetting, fun environment' hname => ?_⟩, rfl, rfl, ?_⟩
  · exact (htakes setting hsetting).congr (takes_ofEnvironment environment' setting hsetting) hname
  · exact ((htakes connections hconnections).inBounds
      (default_inBounds connections hconnections)).1

/-! ## An untidy environment -/

namespace Untidy

/-- No connections, a retry number with a sign and zeros in front, a negative buffer, and one size that
is too large by one. -/
def environment : Environment
  | "PE_MAX_DB_CONNECTIONS" => some "0"
  | "PE_BALANCE_UPDATE_RETRIES" => some "+0000000000000000000007"
  | "PE_STATEMENT_STREAM_BUFFER" => some "-1"
  | "PE_EVENT_BUFFER_SIZE" => some "18446744073709551616"
  | _ => none

theorem retries_given : retries.Given environment 7 :=
  ⟨"+0000000000000000000007", rfl, by decide, by decide, by decide⟩

theorem connections_not_given : ¬ ∃ n, connections.Given environment n :=
  not_given_iff.mpr fun _ hset => Or.inr ⟨0, by cases hset; decide, Or.inl Nat.zero_lt_one⟩

theorem statementRoom_not_given : ¬ ∃ n, statementRoom.Given environment n :=
  not_given_iff.mpr fun _ hset =>
    Or.inl (Numeral.not_denotes_iff.mpr (Or.inr ⟨'-', by cases hset; decide, by decide⟩))

theorem eventRoom_not_given : ¬ ∃ n, eventRoom.Given environment n :=
  not_given_iff.mpr fun _ hset => Or.inr ⟨2 ^ 64, by cases hset; decide, Or.inr le_rfl⟩

/-- Only the retries are taken, and they are the same where all variables hold this one text. -/
theorem numbers_taken_untidy :
    retries.Given environment 7 ∧
      ((ofEnvironment environment).maxConnections = 5 ∧
        (ofEnvironment environment).balanceRetries = 7 ∧
        (ofEnvironment environment).statementBuffer = 1 ∧
        (ofEnvironment environment).eventBuffer = 25) ∧
      (ofEnvironment fun _ => some "+0000000000000000000007").balanceRetries = 7 := by
  have hnumbers := (numbers_taken environment).1
  have hconnections := (hnumbers connections (by simp [numberSettings])).1.otherwise
    connections_not_given
  obtain ⟨hretries, hown⟩ := hnumbers retries (by simp [numberSettings])
  have hstatement := (hnumbers statementRoom (by simp [numberSettings])).1.otherwise
    statementRoom_not_given
  have hevent := (hnumbers eventRoom (by simp [numberSettings])).1.otherwise eventRoom_not_given
  have hseven := hretries.given 7 retries_given
  exact ⟨retries_given, ⟨hconnections, hseven, hstatement, hevent⟩,
    (hown (fun _ => some "+0000000000000000000007") rfl).trans hseven⟩

end Untidy

end CardHolds.Settings
