import RemoteLog.Worker.Settings

/-! # The number of threads

The number of threads goes from a variable through the checks of the settings into a counter of permits,
which has an upper bound of its own. The checks look at the lower end only: a worker may be set up without
a problem and still fail to make its server. That happens just if the variable spells a number of 64 bits
that is larger than the counter can hold.

* **`Decimal.Spells text n`** — how a number is written into a setting;
  **`Decimal.naturalBelow?_eq_some_iff`** — such texts are read, and no others.
* **`Settings.threads_pos`** — settings without a problem have a thread.
* **`Settings.server_made_iff`** — which settings make a server. -/

namespace RemoteLog

namespace Decimal

variable {text : String} {n bound : Nat}

/-- **A text spells a natural number:** ASCII digits, behind a plus or behind nothing. -/
def Spells (text : String) (n : Nat) : Prop :=
  ∃ digits : List Char, digits ≠ [] ∧ (∀ c ∈ digits, c.isDigit = true) ∧ value digits = n ∧
    (text.toList = digits ∨ text.toList = '+' :: digits)

theorem digits?_eq_some_iff {digits : List Char} :
    digits? digits = some n ↔
      digits ≠ [] ∧ (∀ c ∈ digits, c.isDigit = true) ∧ value digits = n := by
  have hcheck : (!digits.isEmpty && digits.all Char.isDigit) = true ↔
      digits ≠ [] ∧ ∀ c ∈ digits, c.isDigit = true := by
    simp only [Bool.and_eq_true, Bool.not_eq_true', List.isEmpty_eq_false_iff, List.all_eq_true]
  unfold digits?
  split
  · next hdigits =>
    obtain ⟨hne, hall⟩ := hcheck.mp hdigits
    rw [Option.some.injEq]
    exact ⟨fun hvalue => ⟨hne, hall, hvalue⟩, fun h => h.2.2⟩
  · next hdigits =>
    simp only [reduceCtorEq, false_iff]
    exact fun h => hdigits (hcheck.mpr ⟨h.1, h.2.1⟩)

theorem natural?_eq_some_iff : natural? text = some n ↔ Spells text n := by
  unfold natural? Spells
  split
  · next digits hplus =>
    -- A plus is no digit, so the text cannot be all digits.
    rw [digits?_eq_some_iff]
    constructor
    · rintro ⟨hne, hall, hvalue⟩
      exact ⟨digits, hne, hall, hvalue, .inr hplus⟩
    · rintro ⟨digits', hne, hall, hvalue, htext | htext⟩
      · have hdigit := hall '+' (by rw [← htext, hplus]; exact List.mem_cons_self ..)
        cases hdigit
      · obtain rfl : digits = digits' := by simpa [hplus] using htext
        exact ⟨hne, hall, hvalue⟩
  · next digits hplain =>
    rw [digits?_eq_some_iff]
    constructor
    · rintro ⟨hne, hall, hvalue⟩
      exact ⟨text.toList, hne, hall, hvalue, .inl rfl⟩
    · rintro ⟨digits', hne, hall, hvalue, htext | htext⟩
      · rw [htext]
        exact ⟨hne, hall, hvalue⟩
      · exact absurd htext (hplain digits')

/-- **A number below a bound is read** just from a text that spells it. -/
theorem naturalBelow?_eq_some_iff :
    naturalBelow? bound text = some n ↔ Spells text n ∧ n < bound := by
  rw [naturalBelow?, Option.filter_eq_some_iff, natural?_eq_some_iff, decide_eq_true_iff]

end Decimal

namespace Worker.Settings

variable {settings : Settings}

/-- **Settings without a problem have a thread.** -/
theorem threads_pos (h : settings.problem? = none) : 1 ≤ settings.threads := by
  refine Nat.pos_of_ne_zero fun hzero => ?_
  unfold problem? at h
  rw [if_pos hzero] at h
  -- The checks before this one fail with another problem, or are passed.
  split at h
  · cases h
  split at h
  · cases h
  split at h <;> cases h

theorem serverFault?_eq_none_iff : settings.serverFault? = none ↔ settings.threads ≤ maxPermits := by
  unfold serverFault?
  split
  · next h => simp [h]
  · next h => simp [Nat.le_of_not_lt h]

/-- A worker that has no address to listen on stops with the status of a failure. -/
theorem exitStatus_of_listen {host : Network.Host} {error : StartError}
    (h : settings.listen host = .error error) : error.exitStatus = 1 := by
  unfold listen at h
  cases hbind : host.bind settings.address with
  | ok address =>
    rw [hbind] at h
    exact absurd h (by simp)
  | error cause =>
    rw [hbind] at h
    rw [← Except.error.inj h]
    rfl

/-- A worker whose settings have no problem stops with the status of a crash just if its server cannot be
made; else it listens, or has no address to listen on. -/
theorem start_crashes_iff (host : Network.Host) (h : settings.problem? = none) :
    (∃ error, settings.start host = .error error ∧ error.exitStatus = 101) ↔
      settings.serverFault? ≠ none := by
  cases hfault : settings.serverFault? with
  | some error =>
    have hmany : error = .tooManyThreads := by
      unfold serverFault? at hfault
      split at hfault
      · exact (Option.some.inj hfault).symm
      · cases hfault
    have hstart : settings.start host = .error .tooManyThreads := by rw [start, h, hfault, hmany]
    exact iff_of_true ⟨_, hstart, rfl⟩ (Option.some_ne_none error)
  | none =>
    have hstart : settings.start host = settings.listen host := by rw [start, h, hfault]
    refine iff_of_false ?_ (fun hne => hne rfl)
    rintro ⟨error, herror, hstatus⟩
    rw [hstart] at herror
    rw [exitStatus_of_listen herror] at hstatus
    exact absurd hstatus (by decide)

/-- More threads than the machine gives come from the variable. -/
theorem threads_le_iff {defaults : Defaults} (hdefaults : defaults.threads ≤ maxPermits)
    (lookup : String → Option String) :
    (ofLookup defaults lookup).threads ≤ maxPermits ↔
      ∀ text n, lookup "LOGGER_WORKER_THREADS" = some text → Decimal.Spells text n →
        n < UInt64.size → n ≤ maxPermits := by
  have hthreads : (ofLookup defaults lookup).threads =
    ((lookup "LOGGER_WORKER_THREADS").bind (Decimal.naturalBelow? UInt64.size)).getD
      defaults.threads := rfl
  rw [hthreads]
  cases hread : (lookup "LOGGER_WORKER_THREADS").bind (Decimal.naturalBelow? UInt64.size) with
  | none =>
    rw [Option.getD_none]
    refine iff_of_true hdefaults ?_
    intro text n htext hspells hn
    have hnumber := Decimal.naturalBelow?_eq_some_iff.mpr ⟨hspells, hn⟩
    rw [htext, Option.bind_some, hnumber] at hread
    cases hread
  | some m =>
    obtain ⟨written, hwritten, hnumber⟩ := Option.bind_eq_some_iff.mp hread
    obtain ⟨hspells, hm⟩ := Decimal.naturalBelow?_eq_some_iff.mp hnumber
    rw [Option.getD_some]
    refine ⟨fun hle text n htext hspells' hn => ?_, fun hall => hall written m hwritten hspells hm⟩
    -- A text spells one number at most.
    obtain rfl : written = text := Option.some.inj (hwritten.symm.trans htext)
    rw [Decimal.naturalBelow?_eq_some_iff.mpr ⟨hspells', hn⟩] at hnumber
    obtain rfl := Option.some.inj hnumber
    exact hle

/-- **Which settings make a server.** The settings that variables give may be without a problem, on a
machine whose own number of threads can be counted. Then there is a thread at least. The server is made
just if there are no more threads than permits can be counted, that is, unless the variable spells a
number of 64 bits above that; and then, and only then, the worker crashes. -/
theorem server_made_iff {defaults : Defaults} (hdefaults : defaults.threads ≤ maxPermits)
    (lookup : String → Option String) (hvalid : (ofLookup defaults lookup).problem? = none) :
    let settings := ofLookup defaults lookup
    1 ≤ settings.threads ∧
      (settings.serverFault? = none ↔ settings.threads ≤ maxPermits) ∧
      (settings.serverFault? = none ↔
        ∀ text n, lookup "LOGGER_WORKER_THREADS" = some text → Decimal.Spells text n →
          n < UInt64.size → n ≤ maxPermits) ∧
      ∀ host, (∃ error, settings.start host = .error error ∧ error.exitStatus = 101) ↔
        maxPermits < settings.threads := by
  intro settings
  refine ⟨threads_pos hvalid, serverFault?_eq_none_iff,
    serverFault?_eq_none_iff.trans (threads_le_iff hdefaults lookup), fun host => ?_⟩
  rw [start_crashes_iff host hvalid, ne_eq, serverFault?_eq_none_iff, Nat.not_le]

/-- The largest number of threads, with a plus and a zero in front. -/
theorem server_made_iff_largest :
    let settings := ofLookup ⟨"/", 4⟩ fun key =>
      if key = "WORKER_HOME" then some "/w"
      else if key = "LOGGER_WORKER_THREADS" then some "+02305843009213693951" else none
    settings.problem? = none ∧ settings.threads = maxPermits ∧ settings.serverFault? = none := by
  intro settings
  have hvalid : settings.problem? = none := by decide +kernel
  have hthreads : settings.threads = maxPermits := by decide +kernel
  obtain ⟨-, hmade, -⟩ := @server_made_iff ⟨"/", 4⟩ (by decide) _ hvalid
  exact ⟨hvalid, hthreads, hmade.mpr (Nat.le_of_eq hthreads)⟩

/-- **A worker that crashes.** Its settings are without a problem, but it has one thread more than permits
can be counted, so its server is not made, whatever the host is. -/
theorem valid_settings_crash :
    let settings := ofLookup ⟨"/", 4⟩ fun key =>
      if key = "WORKER_HOME" then some "/w"
      else if key = "LOGGER_WORKER_THREADS" then some "2305843009213693952" else none
    settings.problem? = none ∧ settings.serverFault? = some .tooManyThreads ∧
      ∀ host, settings.start host = .error .tooManyThreads := by
  intro settings
  have hvalid : settings.problem? = none := by decide +kernel
  have hfault : settings.serverFault? = some .tooManyThreads := by decide +kernel
  refine ⟨hvalid, hfault, fun host => ?_⟩
  rw [start, hvalid, hfault]

end Worker.Settings

end RemoteLog
