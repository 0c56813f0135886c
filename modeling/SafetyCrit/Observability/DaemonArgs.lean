import Mathlib.Algebra.GroupWithZero.Nat
import SafetyCrit.Library.GuardedDigits

/-!
Owns the model of the daemon's arguments: `parse_u64`, `parse_listen_address` and
`parse_daemon_args`, with the texts that `parse_u64` reads exactly and the
configurations that come out.

The loop of `parse_u64` checks its accumulator against one limit in front of every
digit. That keeps it from wrapping, and refuses the six largest numbers of 64 bits.
`parse_u64_exact_iff` says that these are all it gets wrong.

`inetPton` stands for the C library's check of a numeric IPv4 address.
-/

namespace SafetyCrit.Observability

open SafetyCrit.Library.GuardedDigits

/-! ### `parse_u64` -/

/-- `UINT64_MAX`. -/
def uint64Max : UInt64 := 0xFFFFFFFFFFFFFFFF

/-- The loop of `parse_u64`; `none` where it returns `false`. -/
def parseDigits (value : UInt64) : List Char → Option UInt64
  | [] => some value
  | c :: text =>
      if c < '0' ∨ '9' < c then none
      else if (uint64Max - 9) / 10 < value then none
      else parseDigits (value * 10 + UInt64.ofNat (c.toNat - '0'.toNat)) text

/-- `parse_u64`: what it returns, and `out` behind it. -/
def parseU64 (text : List Char) (out : UInt64) : Bool × UInt64 :=
  if text = [] then (false, out)
  else
    match parseDigits 0 text with
    | some value => (true, value)
    | none => (false, out)

/-! ### What it should read -/

/-- One decimal digit or more, with any number of leading zeros. -/
def IsNumeral (text : List Char) : Prop := text ≠ [] ∧ ∀ c ∈ text, c.isDigit = true

instance (text : List Char) : Decidable (IsNumeral text) :=
  decidable_of_iff (text.isEmpty = false ∧ text.all Char.isDigit = true) (by simp [IsNumeral])

/-- The number that digits stand for. -/
def numeralValue (text : List Char) : Nat := Nat.ofDigitChars 10 text 0

/-- `parse_u64` accepts a text exactly if it is a numeral of 64 bits, stores its
value, and leaves `out` alone where it refuses. -/
structure ParsedExactly (text : List Char) (out : UInt64) : Prop where
  accepted : (parseU64 text out).1 = true ↔ IsNumeral text ∧ numeralValue text < 2 ^ 64
  stored : (parseU64 text out).1 = true → (parseU64 text out).2.toNat = numeralValue text
  unchanged : (parseU64 text out).1 = false → (parseU64 text out).2 = out

/-! ### The loop -/

/-- The digits of a text as numbers. -/
def digitsOf (text : List Char) : List Nat := text.map fun c => c.toNat - '0'.toNat

theorem numeralValue_eq (text : List Char) :
    numeralValue text = valueFrom 10 0 (digitsOf text) := by
  rw [numeralValue, Nat.ofDigitChars_eq_foldl, valueFrom, digitsOf, List.foldl_map]

theorem digit_small {c : Char} (digit : c.isDigit = true) : c.toNat - '0'.toNat < 10 := by
  obtain ⟨low, high⟩ := Char.isDigit_iff_toNat.mp digit
  change c.toNat - 48 < 10
  change c.toNat ≤ 57 at high
  omega

theorem isDigit_iff_between (c : Char) : c.isDigit = true ↔ ¬ (c < '0' ∨ '9' < c) := by
  rw [Char.isDigit_iff_toNat, Char.lt_def, Char.lt_def, UInt32.lt_iff_toNat_lt,
    UInt32.lt_iff_toNat_lt]
  change '0'.toNat ≤ c.toNat ∧ c.toNat ≤ '9'.toNat ↔ ¬ (c.toNat < '0'.toNat ∨ '9'.toNat < c.toNat)
  omega

/-- The limit of the loop, as a number. -/
def kGuard : Nat := 1844674407370955160

theorem guard_lt_iff (value : UInt64) : (uint64Max - 9) / 10 < value ↔ kGuard < value.toNat := by
  have limit : ((uint64Max - 9) / 10).toNat = kGuard := by decide
  rw [UInt64.lt_iff_toNat_lt, limit]

/-- No accumulation below the limit wraps. -/
theorem accumulated_toNat {value : UInt64} {digit : Nat} (within : value.toNat ≤ kGuard)
    (small : digit < 10) :
    (value * 10 + UInt64.ofNat digit).toNat = 10 * value.toNat + digit := by
  unfold kGuard at within
  rw [UInt64.toNat_add, UInt64.toNat_mul, UInt64.toNat_ofNat']
  change (value.toNat * 10 % 2 ^ 64 + digit % 2 ^ 64) % 2 ^ 64 = _
  omega

/-- On digits the loop is the guarded reader of numbers. -/
theorem parseDigits_eq {text : List Char} (digits : ∀ c ∈ text, c.isDigit = true)
    (value : UInt64) :
    (parseDigits value text).map UInt64.toNat =
      readGuarded 10 kGuard value.toNat (digitsOf text) := by
  induction text generalizing value with
  | nil => rfl
  | cons c text inductionHypothesis =>
      obtain ⟨digit, rest⟩ := List.forall_mem_cons.mp digits
      change _ = readGuarded 10 kGuard value.toNat ((c.toNat - '0'.toNat) :: digitsOf text)
      rw [parseDigits, if_neg ((isDigit_iff_between c).mp digit), readGuarded]
      by_cases high : (uint64Max - 9) / 10 < value
      · rw [if_pos high, if_pos ((guard_lt_iff value).mp high)]
        rfl
      · have within : ¬ kGuard < value.toNat := fun above => high ((guard_lt_iff value).mpr above)
        rw [if_neg high, if_neg within, inductionHypothesis rest,
          accumulated_toNat (Nat.le_of_not_lt within) (digit_small digit)]

/-- Everything but digits is refused, however much was read before. -/
theorem parseDigits_of_some {text : List Char} {value result : UInt64}
    (read : parseDigits value text = some result) : ∀ c ∈ text, c.isDigit = true := by
  induction text generalizing value with
  | nil => exact fun c member => absurd member List.not_mem_nil
  | cons c text inductionHypothesis =>
      rw [parseDigits] at read
      split at read
      · cases read
      · next digit =>
        split at read
        · cases read
        · exact List.forall_mem_cons.mpr
            ⟨(isDigit_iff_between c).mpr digit, inductionHypothesis read⟩

/-- What the loop accepts from its start: digits whose value is below `2 ^ 64 - 6`. -/
theorem parseDigits_zero_iff {text : List Char} {result : UInt64} :
    parseDigits 0 text = some result ↔
      (∀ c ∈ text, c.isDigit = true) ∧ numeralValue text < 2 ^ 64 - 6 ∧
        result.toNat = numeralValue text := by
  have bound (digits : ∀ c ∈ text, c.isDigit = true) (number : Nat) :
      (parseDigits 0 text).map UInt64.toNat = some number ↔
        number = numeralValue text ∧ number < 2 ^ 64 - 6 := by
    have small : ∀ digit ∈ digitsOf text, digit < 10 := by
      intro digit member
      obtain ⟨c, inside, rfl⟩ := List.mem_map.mp member
      exact digit_small (digits c inside)
    rw [parseDigits_eq digits, numeralValue_eq]
    exact readGuarded_zero_iff (by decide) small
  constructor
  · intro read
    have digits := parseDigits_of_some read
    obtain ⟨value, low⟩ := (bound digits result.toNat).mp (by rw [read]; rfl)
    exact ⟨digits, value ▸ low, value⟩
  · rintro ⟨digits, low, value⟩
    have read := (bound digits result.toNat).mpr ⟨value, value ▸ low⟩
    obtain ⟨found, same, number⟩ := Option.map_eq_some_iff.mp read
    rw [same, UInt64.toNat_inj.mp number]

/-! ### Exact texts -/

/-- What `parse_u64` does with a text: it stores the value of a numeral below
`2 ^ 64 - 6`, and refuses every other text. -/
theorem parseU64_cases (text : List Char) (out : UInt64) :
    (IsNumeral text ∧ numeralValue text < 2 ^ 64 - 6 ∧
      ∃ value, parseU64 text out = (true, value) ∧ value.toNat = numeralValue text) ∨
    (¬ (IsNumeral text ∧ numeralValue text < 2 ^ 64 - 6) ∧
      parseU64 text out = (false, out)) := by
  unfold parseU64
  by_cases blank : text = []
  · rw [if_pos blank]
    exact Or.inr ⟨fun accepted => accepted.1.1 blank, rfl⟩
  · rw [if_neg blank]
    cases read : parseDigits 0 text with
    | some value =>
        obtain ⟨digits, low, stored⟩ := parseDigits_zero_iff.mp read
        exact Or.inl ⟨⟨blank, digits⟩, low, value, rfl, stored⟩
    | none =>
        refine Or.inr ⟨?_, rfl⟩
        rintro ⟨⟨-, digits⟩, low⟩
        have fits : (UInt64.ofNat (numeralValue text)).toNat = numeralValue text :=
          UInt64.toNat_ofNat_of_lt' (Nat.lt_of_lt_of_le low (by decide))
        rw [parseDigits_zero_iff.mpr ⟨digits, low, fits⟩] at read
        cases read

example : parseU64 "00042".toList 7 = (true, 42) := by decide

example : parseU64 "4 2".toList 7 = (false, 7) := by decide

/-- `parse_u64` is exact but for the numerals of the six largest numbers of 64
bits, with any number of leading zeros. -/
theorem parse_u64_exact_iff (text : List Char) (out : UInt64) :
    ParsedExactly text out ↔
      ¬ (IsNumeral text ∧ 2 ^ 64 - 6 ≤ numeralValue text ∧ numeralValue text < 2 ^ 64) := by
  rcases parseU64_cases text out with ⟨numeral, low, value, read, stored⟩ | ⟨refused, read⟩
  · refine iff_of_true ⟨?_, ?_, ?_⟩ fun top => Nat.not_lt.mpr top.2.1 low
    · rw [read]
      exact iff_of_true rfl ⟨numeral, by omega⟩
    · rw [read]
      exact fun _ => stored
    · rw [read]
      exact fun never => absurd never.symm Bool.false_ne_true
  · constructor
    · rintro ⟨accepted, -, -⟩ ⟨numeral, -, small⟩
      rw [read] at accepted
      exact Bool.false_ne_true (accepted.mpr ⟨numeral, small⟩)
    · intro spared
      refine ⟨?_, ?_, ?_⟩
      · rw [read]
        refine iff_of_false Bool.false_ne_true ?_
        rintro ⟨numeral, small⟩
        by_cases low : numeralValue text < 2 ^ 64 - 6
        · exact refused ⟨numeral, low⟩
        · exact spared ⟨numeral, Nat.le_of_not_lt low, small⟩
      · rw [read]
        exact fun never => absurd never Bool.false_ne_true
      · rw [read]
        exact fun _ => rfl

/-- The largest number of 64 bits is refused. -/
theorem largest_u64_refused : ¬ ParsedExactly "18446744073709551615".toList 0 := by
  intro exact_
  have accepted := exact_.accepted.mpr (by decide)
  have refused : parseU64 "18446744073709551615".toList 0 = (false, 0) := by decide +kernel
  rw [refused] at accepted
  cases accepted

/-! ### Listen addresses -/

/-- `rfind(':')`: the text in front of the last colon and the text behind it. -/
def splitLastColon (text : List Char) : Option (List Char × List Char) :=
  match text.reverse.dropWhile (· ≠ ':') with
  | [] => none
  | _ :: host => some (host.reverse, (text.reverse.takeWhile (· ≠ ':')).reverse)

/-- `parse_listen_address`: the host and the port, or the error. `inet_pton` gets the
host up to its first NUL. -/
def parseListenAddress (inetPton : List Char → Bool) (text : List Char) :
    Except (List Char) (List Char × Nat) :=
  match splitLastColon text with
  | none => .error "listen address must be HOST:PORT".toList
  | some (host, portText) =>
      if host = [] ∨ portText = [] ∨ 5 < portText.length then
        .error "listen address must be HOST:PORT".toList
      else if ¬ portText.all Char.isDigit then .error "listen port must be numeric".toList
      else if 65535 < numeralValue portText then .error "listen port out of range".toList
      else if ¬ inetPton (host.takeWhile (· ≠ '\x00')) then
        .error "listen host must be a numeric IPv4 address".toList
      else .ok (host, numeralValue portText)

/-! ### The arguments -/

/-- `DaemonConfig`; the poll interval in milliseconds. -/
structure DaemonConfig where
  listenAddress : List Char := "127.0.0.1:8080".toList
  regionName : List Char := "/safety_crit_region".toList
  eventLogPath : List Char := []
  pollInterval : Nat := 250
  ticks : UInt64 := 0
  once : Bool := false

/-- `kMaxDaemonPollInterval`. -/
def kMaxDaemonPollInterval : Nat := 3600000

/-- A flag that takes a value: the error where the value is missing, and what the
value does to the configuration. -/
structure ValueFlag where
  missing : List Char
  set : List Char → DaemonConfig → Except (List Char) DaemonConfig

section Arguments

variable (inetPton : List Char → Bool)

/-- `--listen`. -/
def listenFlag : ValueFlag where
  missing := "observability: --listen requires HOST:PORT".toList
  set value cfg :=
    match parseListenAddress inetPton value with
    | .error addressError => .error ("observability: --listen ".toList ++ addressError)
    | .ok _ => .ok { cfg with listenAddress := value }

/-- `--region`. -/
def regionFlag : ValueFlag where
  missing := "observability: --region requires an absolute shm name".toList
  set value cfg :=
    if value.head? ≠ some '/' ∨ value.tail = [] then
      .error "observability: --region requires an absolute shm name".toList
    else .ok { cfg with regionName := value }

/-- `--event-log`. -/
def eventLogFlag : ValueFlag where
  missing := "observability: --event-log requires a file path".toList
  set value cfg :=
    if value = [] then .error "observability: --event-log requires a file path".toList
    else .ok { cfg with eventLogPath := value }

/-- The error of `--poll-interval-ms`. -/
def pollIntervalError : List Char :=
  "observability: --poll-interval-ms requires an integer in 1..3600000".toList

/-- `--poll-interval-ms`. -/
def pollIntervalFlag : ValueFlag where
  missing := pollIntervalError
  set value cfg :=
    let (parsed, ms) := parseU64 value 0
    if parsed = false ∨ ms.toNat < 1 ∨ kMaxDaemonPollInterval < ms.toNat then
      .error pollIntervalError
    else .ok { cfg with pollInterval := ms.toNat }

/-- `--ticks`. -/
def ticksFlag : ValueFlag where
  missing := "observability: --ticks requires a positive integer".toList
  set value cfg :=
    let (parsed, ticks) := parseU64 value 0
    if parsed = false ∨ ticks.toNat < 1 then
      .error "observability: --ticks requires a positive integer".toList
    else .ok { cfg with ticks := ticks }

/-- The flags with a value, by name. -/
def valueFlag (arg : List Char) : Option ValueFlag :=
  if arg = "--listen".toList then some (listenFlag inetPton)
  else if arg = "--region".toList then some regionFlag
  else if arg = "--event-log".toList then some eventLogFlag
  else if arg = "--poll-interval-ms".toList then some pollIntervalFlag
  else if arg = "--ticks".toList then some ticksFlag
  else none

/-- `parse_daemon_args`: the configuration behind it, and the error where it returns
`false`. -/
def parseDaemonArgs : DaemonConfig → List (List Char) → DaemonConfig × Option (List Char)
  | cfg, [] => (cfg, none)
  | cfg, arg :: args =>
      if arg = "--once".toList then parseDaemonArgs { cfg with once := true } args
      else
        match valueFlag inetPton arg, args with
        | none, _ => (cfg, some ("observability: unknown argument: ".toList ++ arg))
        | some flag, [] => (cfg, some flag.missing)
        | some flag, value :: more =>
            match flag.set value cfg with
            | .error error => (cfg, some error)
            | .ok next => parseDaemonArgs next more

/-- A configuration the daemon can start with: an address that is parsed again when
the server is configured, an absolute region name, a poll interval in its bounds. -/
structure DaemonConfig.Valid (cfg : DaemonConfig) : Prop where
  listen : ∃ address, parseListenAddress inetPton cfg.listenAddress = .ok address
  region : cfg.regionName.head? = some '/' ∧ cfg.regionName.tail ≠ []
  poll : 1 ≤ cfg.pollInterval ∧ cfg.pollInterval ≤ kMaxDaemonPollInterval

variable {inetPton}

/-- The defaults are valid where the loopback address is. -/
theorem DaemonConfig.valid_default (loopback : inetPton "127.0.0.1".toList = true) :
    DaemonConfig.Valid inetPton {} where
  listen := by
    have split : splitLastColon "127.0.0.1:8080".toList =
        some ("127.0.0.1".toList, "8080".toList) := by decide
    refine ⟨("127.0.0.1".toList, 8080), ?_⟩
    have whole : "127.0.0.1".toList.takeWhile (· ≠ '\x00') = "127.0.0.1".toList := by decide
    change parseListenAddress inetPton "127.0.0.1:8080".toList = _
    rw [parseListenAddress, split]
    simp only [whole, loopback]
    decide
  region := by decide
  poll := by decide

/-- An error that begins with a prefix and a flag. -/
def Names (arg error : List Char) : Prop := "observability: ".toList ++ arg <+: error

/-- What is asked of a flag: its errors name it, and it checks what it sets. -/
structure ValueFlag.Sound (arg : List Char) (flag : ValueFlag) (inetPton : List Char → Bool) :
    Prop where
  missing : Names arg flag.missing
  error : ∀ value cfg error, flag.set value cfg = .error error → Names arg error
  keeps : ∀ value cfg next, flag.set value cfg = .ok next → cfg.Valid inetPton →
    next.Valid inetPton

/-- A flag with one error, the one for a missing value. -/
theorem ValueFlag.sound_of_single {arg : List Char} {flag : ValueFlag}
    (missing : Names arg flag.missing)
    (single : ∀ value cfg, flag.set value cfg = .error flag.missing ∨
      ∃ next, flag.set value cfg = .ok next ∧ (cfg.Valid inetPton → next.Valid inetPton)) :
    flag.Sound arg inetPton where
  missing := missing
  error value cfg error refused := by
    rcases single value cfg with same | ⟨next, same, -⟩
    · rw [same] at refused
      cases refused
      exact missing
    · rw [same] at refused
      cases refused
  keeps value cfg next set := by
    rcases single value cfg with same | ⟨other, same, keeps⟩
    · rw [same] at set
      cases set
    · rw [same] at set
      cases set
      exact keeps

theorem sound_listenFlag : (listenFlag inetPton).Sound "--listen".toList inetPton where
  missing := (by decide : "observability: ".toList ++ "--listen".toList <+:
    "observability: --listen requires HOST:PORT".toList)
  error value cfg error refused := by
    unfold listenFlag at refused
    dsimp only at refused
    split at refused
    · cases refused
      exact (by decide : "observability: ".toList ++ "--listen".toList <+:
        "observability: --listen ".toList).trans (List.prefix_append _ _)
    · cases refused
  keeps value cfg next set valid := by
    unfold listenFlag at set
    dsimp only at set
    split at set
    · cases set
    · next address parsed =>
      cases set
      exact ⟨⟨address, parsed⟩, valid.region, valid.poll⟩

theorem sound_regionFlag : regionFlag.Sound "--region".toList inetPton := by
  refine ValueFlag.sound_of_single (by unfold Names; decide) fun value cfg => ?_
  by_cases relative : value.head? ≠ some '/' ∨ value.tail = []
  · exact Or.inl (if_pos relative)
  · obtain ⟨front, rest⟩ := not_or.mp relative
    exact Or.inr ⟨_, if_neg relative, fun valid =>
      ⟨valid.listen, ⟨not_not.mp front, rest⟩, valid.poll⟩⟩

theorem sound_eventLogFlag : eventLogFlag.Sound "--event-log".toList inetPton := by
  refine ValueFlag.sound_of_single (by unfold Names; decide) fun value cfg => ?_
  by_cases blank : value = []
  · exact Or.inl (if_pos blank)
  · exact Or.inr ⟨_, if_neg blank, fun valid => ⟨valid.listen, valid.region, valid.poll⟩⟩

theorem sound_pollIntervalFlag :
    pollIntervalFlag.Sound "--poll-interval-ms".toList inetPton := by
  refine ValueFlag.sound_of_single (by unfold Names; decide) fun value cfg => ?_
  by_cases outside : (parseU64 value 0).1 = false ∨ (parseU64 value 0).2.toNat < 1 ∨
      kMaxDaemonPollInterval < (parseU64 value 0).2.toNat
  · exact Or.inl (if_pos outside)
  · obtain ⟨-, bounds⟩ := not_or.mp outside
    obtain ⟨low, high⟩ := not_or.mp bounds
    exact Or.inr ⟨_, if_neg outside, fun valid =>
      ⟨valid.listen, valid.region, Nat.le_of_not_lt low, Nat.le_of_not_lt high⟩⟩

theorem sound_ticksFlag : ticksFlag.Sound "--ticks".toList inetPton := by
  refine ValueFlag.sound_of_single (by unfold Names; decide) fun value cfg => ?_
  by_cases none_ : (parseU64 value 0).1 = false ∨ (parseU64 value 0).2.toNat < 1
  · exact Or.inl (if_pos none_)
  · exact Or.inr ⟨_, if_neg none_, fun valid => ⟨valid.listen, valid.region, valid.poll⟩⟩

theorem sound_valueFlag {arg : List Char} {flag : ValueFlag}
    (known : valueFlag inetPton arg = some flag) : flag.Sound arg inetPton := by
  unfold valueFlag at known
  split_ifs at known with listen region eventLog poll ticks
  · cases known
    exact listen ▸ sound_listenFlag
  · cases known
    exact region ▸ sound_regionFlag
  · cases known
    exact eventLog ▸ sound_eventLogFlag
  · cases known
    exact poll ▸ sound_pollIntervalFlag
  · cases known
    exact ticks ▸ sound_ticksFlag

/-- An error of `parse_daemon_args` names one of the arguments. -/
def NamesArgument (args : List (List Char)) (error : List Char) : Prop :=
  ∃ arg ∈ args, Names arg error ∨ error = "observability: unknown argument: ".toList ++ arg

theorem NamesArgument.behind {args : List (List Char)} {error : List Char}
    (named : NamesArgument args error) (front : List (List Char)) :
    NamesArgument (front ++ args) error := by
  obtain ⟨arg, member, names⟩ := named
  exact ⟨arg, List.mem_append_right front member, names⟩

/-- Whatever the arguments, the configuration behind them is valid if the one before
was, and an error names an argument. By induction on the arguments, two at a time
behind a flag with a value. -/
theorem parseDaemonArgs_sound (args : List (List Char)) (cfg : DaemonConfig)
    (valid : cfg.Valid inetPton) :
    (parseDaemonArgs inetPton cfg args).1.Valid inetPton ∧
      ∀ error, (parseDaemonArgs inetPton cfg args).2 = some error → NamesArgument args error := by
  induction cfg, args using parseDaemonArgs.induct inetPton with
  | case1 cfg => exact ⟨valid, fun error never => by cases never⟩
  | case2 cfg args inductionHypothesis =>
      unfold parseDaemonArgs
      rw [if_pos rfl]
      obtain ⟨kept, named⟩ := inductionHypothesis ⟨valid.listen, valid.region, valid.poll⟩
      exact ⟨kept, fun error failed => (named error failed).behind ["--once".toList]⟩
  | case3 cfg arg args other unknown =>
      unfold parseDaemonArgs
      simp only [if_neg other, unknown]
      refine ⟨valid, fun error failed => ?_⟩
      cases failed
      exact ⟨arg, List.mem_cons_self, Or.inr rfl⟩
  | case4 cfg arg other flag known =>
      unfold parseDaemonArgs
      simp only [if_neg other, known]
      refine ⟨valid, fun error failed => ?_⟩
      cases failed
      exact ⟨arg, List.mem_cons_self, Or.inl (sound_valueFlag known).missing⟩
  | case5 cfg arg other flag value more known error refused =>
      unfold parseDaemonArgs
      simp only [if_neg other, known, refused]
      refine ⟨valid, fun error failed => ?_⟩
      cases failed
      exact ⟨arg, List.mem_cons_self, Or.inl ((sound_valueFlag known).error _ _ _ refused)⟩
  | case6 cfg arg other flag value more known next set inductionHypothesis =>
      unfold parseDaemonArgs
      simp only [if_neg other, known, set]
      obtain ⟨kept, named⟩ :=
        inductionHypothesis ((sound_valueFlag known).keeps value cfg next set valid)
      exact ⟨kept, fun error failed => (named error failed).behind [arg, value]⟩

/-- The daemon is given a valid configuration by any command line. -/
theorem valid_parseDaemonArgs (loopback : inetPton "127.0.0.1".toList = true)
    (args : List (List Char)) : (parseDaemonArgs inetPton {} args).1.Valid inetPton :=
  (parseDaemonArgs_sound args {} (DaemonConfig.valid_default loopback)).1

end Arguments

end SafetyCrit.Observability
