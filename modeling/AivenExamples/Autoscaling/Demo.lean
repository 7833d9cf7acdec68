import AivenExamples.Data.AwkNumber
import AivenExamples.Data.Streak
import Mathlib.Data.List.TakeWhile

/-! The monitor that moves a service to a larger plan while its processors stay busy. -/

namespace AivenExamples.Autoscaling

open Regex Fields AwkNumber Streak

/-! ### Script -/

/-- The regular expression is found in the line, as `grep` and `awk` look for it. -/
def found (dialect : Dialect) (expression line : List Char) : Bool :=
  ((parse dialect expression).bind fun parts => search parts line).isSome

/-- One more character at the start of the first field. -/
def onFirst (char : Char) : List (List Char) → List (List Char)
  | [] => [[char]]
  | field :: fields => (char :: field) :: fields

/-- The fields between matches of `[{},] *`; behind a brace or comma the blanks are skipped. -/
def awkFields : Bool → List Char → List (List Char)
  | _, [] => [[]]
  | skipping, char :: rest =>
    if skipping ∧ char = ' ' then awkFields true rest
    else if char ∈ ['\x7b', '\x7d', ','] then [] :: awkFields true rest
    else onFirst char (awkFields false rest)

/-- `print $(NF)` -/
def lastField (line : List Char) : List Char := (awkFields false line).getLastD []

/-- `$(…)`: what was printed without the line ends behind it. -/
def captured (printed : List Char) : List Char :=
  (printed.reverse.dropWhile (· = '\n')).reverse

/-- `cpu_usage_idle{` -/
def idleName : List Char := "cpu_usage_idle".toList ++ ['\x7b']

/-- `cpu="cpu-total"` -/
def totalLabel : List Char := "cpu=\"cpu-total\"".toList

/-- `CPU_IDLE=$(curl … | grep cpu_usage_idle{ | awk …)`, for the lines that come back. -/
def cpuIdle (metrics : List (List Char)) : List Char :=
  let idle := metrics.filter (found .basic idleName)
  let total := idle.filter (found .extended totalLabel)
  captured (total.flatMap fun line => lastField line ++ ['\n'])

/-- `${text%.*}` -/
def withoutFraction (text : List Char) : List Char :=
  match text.reverse.dropWhile (· ≠ '.') with
  | [] => text
  | _ :: front => front.reverse

/-- The settings in `autoscale.env`; the shell computes with 64 bits. -/
structure Settings where
  cpuIdleMax : Int64
  autoscaleThreshold : Nat

/-- A decimal number as the shell reads it; a zero in front would make it an octal one. -/
def isDecimal (text : List Char) : Bool :=
  text.all Char.isDigit && (text = ['0'] || text.head?.any (· ≠ '0'))

/-- What the script prints and does. -/
inductive Event where
  | waiting
  | idle (percent : List Char)
  | unavailable
  | reached (times : Nat)
  /-- `avn service update` to the next plan, and `avn service wait`. -/
  | upgrade
  deriving DecidableEq

/-- The variables of the loops. -/
structure Monitor where
  waiting : Bool
  i : Nat
  deriving DecidableEq

/-- The script before it has asked for metrics. -/
def start : Monitor := ⟨true, 0⟩

-- What the shell makes of a comparison with a text that is no decimal number.
variable (otherLess : List Char → Bool) (settings : Settings)

/-- `(( ${text} < ${CPU_IDLE_MAX} ))` -/
def isLess (text : List Char) : Bool :=
  if isDecimal text then Int64.ofNat (Nat.ofDigitChars 10 text 0) < settings.cpuIdleMax
  else otherLess text

/-- `[ -n "${CPU_IDLE}" ] && (( ${CPU_IDLE} < ${CPU_IDLE_MAX} ))`, for the metric as it came. -/
def isBusy (percent : List Char) : Bool :=
  withoutFraction percent ≠ [] && isLess otherLess settings (withoutFraction percent)

/-- One round of the first loop, or of the second one after it. -/
def round (monitor : Monitor) (metrics : List (List Char)) : Monitor × List Event :=
  let percent := cpuIdle metrics
  if monitor.waiting then (⟨percent = [], monitor.i⟩, [.waiting])
  else if percent = [] then (monitor, [.unavailable])
  else
    let busy := isBusy otherLess settings percent
    let i := if busy then monitor.i + 1 else 0
    (⟨false, i⟩, [.idle percent] ++ (if busy then [.reached i] else []) ++
      if settings.autoscaleThreshold ≤ i then [.upgrade] else [])

/-- The variables after some rounds. -/
def after (rounds : List (List (List Char))) : Monitor :=
  rounds.foldl (fun monitor metrics => (round otherLess settings monitor metrics).1) start

/-! ### Metrics -/

/-- A decimal number for all processors together; its labels may be any text with this one in it. -/
structure Sample where
  labels : List Char
  total : totalLabel <:+: labels
  units : Nat
  decimals : List Char
  small : units < 2 ^ 63
  digits : ∀ char ∈ decimals, char.isDigit

/-- The number as text. -/
def Sample.text (sample : Sample) : List Char :=
  Nat.toDigits 10 sample.units ++ if sample.decimals = [] then [] else '.' :: sample.decimals

/-- The line of a sample. -/
def Sample.line (sample : Sample) : List Char :=
  idleName ++ (sample.labels ++ '\x7d' :: ' ' :: sample.text)

/-- The share of time that the processors have been idle, in percent. -/
def Sample.value (sample : Sample) : ℚ :=
  decimalValue (Nat.toDigits 10 sample.units) sample.decimals

/-- A line that is not about the idle time of all processors. -/
def Other (line : List Char) : Prop :=
  ¬(idleName <:+: line ∧ totalLabel <:+: line)

/-- The metrics of a service with one node, which may be missing. -/
structure Scrape where
  before : List (List Char)
  sample : Option Sample
  behind : List (List Char)
  others : ∀ line ∈ before ++ behind, Other line

/-- The lines of the metrics. -/
def Scrape.metrics (scrape : Scrape) : List (List Char) :=
  scrape.before ++ scrape.sample.toList.map Sample.line ++ scrape.behind

/-- The values that can be read, in their order. -/
def values (scrapes : List Scrape) : List ℚ :=
  scrapes.filterMap fun scrape => scrape.sample.map Sample.value

/-! ### Reading the metric -/

/-- The fields behind a separator do not depend on what is in front of it. -/
theorem awkFields_separator {separator : Char} (separates : separator ∈ ['\x7b', '\x7d', ','])
    (skipping : Bool) (front rest : List Char) : ∃ fields, fields ≠ [] ∧
      awkFields skipping (front ++ separator :: rest) = fields ++ awkFields true rest := by
  have solid : separator ≠ ' ' := fun same => by simp [same] at separates
  -- Every character of the front is skipped, ends a field, or belongs to the first one.
  induction front generalizing skipping with
  | nil =>
    refine ⟨[[]], List.cons_ne_nil _ _, ?_⟩
    rw [List.nil_append, awkFields, if_neg fun both => solid both.2, if_pos separates]
    rfl
  | cons char front ih =>
    rw [List.cons_append, awkFields]
    split
    · exact ih true
    · split
      · obtain ⟨fields, -, split⟩ := ih true
        exact ⟨[] :: fields, List.cons_ne_nil _ _, by rw [split, List.cons_append]⟩
      · obtain ⟨fields, some, split⟩ := ih false
        rw [split]
        cases fields with
        | nil => exact absurd rfl some
        | cons field fields => exact ⟨(char :: field) :: fields, List.cons_ne_nil _ _, rfl⟩

/-- Text without separators is one field. -/
theorem awkFields_word {skipping : Bool} {word : List Char}
    (solid : ∀ char ∈ word, char ∉ [' ', '\x7b', '\x7d', ',']) :
    awkFields skipping word = [word] := by
  -- Every character is added to the first field.
  induction word generalizing skipping with
  | nil => rfl
  | cons char word ih =>
    obtain ⟨first, rest⟩ := List.forall_mem_cons.mp solid
    rw [List.mem_cons, not_or] at first
    rw [awkFields, if_neg fun both => first.1 both.2, if_neg first.2, ih rest]
    rfl

/-- What stands behind a brace and a blank is the last field. -/
theorem lastField_behind {front word : List Char}
    (solid : ∀ char ∈ word, char ∉ [' ', '\x7b', '\x7d', ',']) :
    lastField (front ++ '\x7d' :: ' ' :: word) = word := by
  -- The brace ends the field in front of it, and the blank belongs to the separator.
  have separates : '\x7d' ∈ ['\x7b', '\x7d', ','] := by decide
  obtain ⟨fields, -, split⟩ := awkFields_separator separates false front (' ' :: word)
  have skipped : awkFields true (' ' :: word) = awkFields true word := by
    rw [awkFields, if_pos ⟨rfl, rfl⟩]
  rw [lastField, split, skipped, awkFields_word solid, List.getLastD_concat]

/-- The text of a number is made of digits and the point. -/
theorem Sample.text_chars (sample : Sample) : ∀ char ∈ sample.text, char.isDigit ∨ char = '.' := by
  -- The point is only there in front of decimals.
  intro char member
  rw [Sample.text, List.mem_append] at member
  rcases member with whole | decimals
  · exact .inl (isDigit_toDigits _ char whole)
  · split at decimals
    · exact absurd decimals List.not_mem_nil
    · exact (List.mem_cons.mp decimals).symm.imp_left (sample.digits char)

/-- The text of a number is never empty. -/
theorem Sample.text_ne_nil (sample : Sample) : sample.text ≠ [] := by
  rw [Sample.text]
  exact List.append_ne_nil_of_left_ne_nil Nat.toDigits_ne_nil _

/-- No character of a number is one of those that are treated in a special way. -/
theorem Sample.text_solid (sample : Sample) :
    ∀ char ∈ sample.text, char ∉ ['\n', ' ', '\x7b', '\x7d', ','] := by
  -- None of them is a digit or the point.
  intro char member special
  have plain := sample.text_chars char member
  simp only [List.mem_cons, List.not_mem_nil, or_false] at special
  rcases special with same | same | same | same | same <;> subst same <;>
    exact absurd plain (by decide)

/-- The number is the last field of its line. -/
theorem lastField_line (sample : Sample) : lastField sample.line = sample.text := by
  rw [Sample.line, ← List.append_assoc]
  exact lastField_behind fun char member special =>
    sample.text_solid char member (List.mem_cons_of_mem _ special)

/-- The filters keep the lines about the idle time of all processors. -/
theorem found_iff (line : List Char) :
    (found .extended totalLabel line ∧ found .basic idleName line) ↔ ¬Other line := by
  -- Neither of the expressions has a character with a meaning of its own.
  have total : parse .extended totalLabel = some (literals totalLabel) := by decide
  have idle : parse .basic idleName = some (literals idleName) := by decide
  rw [found, found, total, idle, Option.bind_some, Option.bind_some, search_literals,
    search_literals, Other, not_not, and_comm]

/-- The line of a sample is about the idle time of all processors. -/
theorem not_other_line (sample : Sample) : ¬Other sample.line := by
  obtain ⟨front, behind, split⟩ := sample.total
  refine not_not.mpr ⟨⟨[], _, rfl⟩, ⟨idleName ++ front, behind ++ '\x7d' :: ' ' :: sample.text, ?_⟩⟩
  simp only [Sample.line, ← split, List.append_assoc]

/-- The number is what the script reads, or nothing where there is none. -/
theorem cpuIdle_metrics (scrape : Scrape) :
    cpuIdle scrape.metrics = (scrape.sample.map Sample.text).getD [] := by
  -- Of all the lines the filters keep that of the sample.
  have dropped {lines : List (List Char)} (others : ∀ line ∈ lines, Other line) :
      lines.filter (fun line => found .extended totalLabel line &&
        found .basic idleName line) = [] := by
    rw [List.filter_eq_nil_iff]
    intro line member kept
    exact (found_iff line).mp (Bool.and_eq_true_iff.mp kept) (others line member)
  obtain ⟨front, back⟩ := List.forall_mem_append.mp scrape.others
  rw [cpuIdle, List.filter_filter, Scrape.metrics, List.filter_append, List.filter_append,
    dropped front, dropped back, List.nil_append, List.append_nil]
  cases scrape.sample with
  | none => rfl
  | some sample =>
    have kept : (found .extended totalLabel sample.line && found .basic idleName sample.line) =
        true := Bool.and_eq_true_iff.mpr ((found_iff _).mpr (not_other_line sample))
    have alone : [sample.line].filter (fun line => found .extended totalLabel line &&
        found .basic idleName line) = [sample.line] := List.filter_cons_of_pos kept
    have ends : ∀ char ∈ sample.text.reverse.head?, decide (char = '\n') = false := by
      intro char first
      have member := List.mem_reverse.mp (List.mem_of_mem_head? first)
      exact decide_eq_false fun same => sample.text_solid char member (by simp [same])
    rw [Option.toList_some, List.map_singleton, alone, List.flatMap_singleton, lastField_line,
      captured, List.reverse_append, List.reverse_singleton, List.singleton_append,
      List.dropWhile_cons_of_pos (by decide), dropWhile_of_head ends, List.reverse_reverse]
    rfl

/-- A digit is not the point. -/
theorem ne_point {char : Char} (digit : char.isDigit) : char ≠ '.' :=
  fun same => absurd digit (by rw [same]; decide)

/-- What is behind the point is cut off. -/
theorem withoutFraction_text (sample : Sample) :
    withoutFraction sample.text = Nat.toDigits 10 sample.units := by
  -- There is no other point, neither in front of it nor behind it.
  have whole : ∀ char ∈ (Nat.toDigits 10 sample.units).reverse, decide (char ≠ '.') = true :=
    fun char member =>
      decide_eq_true (ne_point (isDigit_toDigits _ char (List.mem_reverse.mp member)))
  have behind : ∀ char ∈ sample.decimals.reverse, decide (char ≠ '.') = true :=
    fun char member => decide_eq_true (ne_point (sample.digits char (List.mem_reverse.mp member)))
  rw [withoutFraction, Sample.text]
  split_ifs with none
  · rw [List.append_nil, List.dropWhile_eq_nil_iff.mpr whole]
  · have cut : (Nat.toDigits 10 sample.units ++ '.' :: sample.decimals).reverse.dropWhile
        (fun char => decide (char ≠ '.')) = '.' :: (Nat.toDigits 10 sample.units).reverse := by
      rw [List.reverse_append, List.reverse_cons, List.append_assoc,
        List.dropWhile_append_of_pos behind, List.singleton_append]
      exact List.dropWhile_cons_of_neg (by simp)
    rw [cut]
    exact List.reverse_reverse _

/-- Digits spell a number with no more digits than they are. -/
theorem ofDigitChars_lt {digits : List Char} (all : ∀ char ∈ digits, char.isDigit) (high : Nat) :
    Nat.ofDigitChars 10 digits high < 10 ^ digits.length * (high + 1) := by
  -- Every digit is below ten.
  induction digits generalizing high with
  | nil => simp
  | cons char digits ih =>
    obtain ⟨digit, others⟩ := List.forall_mem_cons.mp all
    have below := ih others (10 * high + (char.toNat - '0'.toNat))
    have figure : char.toNat - '0'.toNat < 10 := by
      have range : 48 ≤ char.toNat ∧ char.toNat ≤ 57 := by
        simpa [Char.isDigit, UInt32.le_iff_toNat_le] using digit
      have zero : '0'.toNat = 48 := rfl
      omega
    rw [Nat.ofDigitChars_cons]
    calc Nat.ofDigitChars 10 digits (10 * high + (char.toNat - '0'.toNat))
        < 10 ^ digits.length * (10 * high + (char.toNat - '0'.toNat) + 1) := below
      _ ≤ 10 ^ digits.length * (10 * (high + 1)) := Nat.mul_le_mul_left _ (by omega)
      _ = 10 ^ (digits.length + 1) * (high + 1) := by rw [Nat.pow_succ, Nat.mul_assoc]

/-- A decimal number is below an integer exactly when the digits in front of its point are. -/
theorem decimalValue_lt_iff (units : Nat) {decimals : List Char}
    (all : ∀ char ∈ decimals, char.isDigit) (bound : Int) :
    decimalValue (Nat.toDigits 10 units) decimals < bound ↔ (units : Int) < bound := by
  -- The digits behind the point add less than one.
  have fraction := ofDigitChars_lt all 0
  have digits : Nat.ofDigitChars 10 (Nat.toDigits 10 units ++ decimals) 0 =
      10 ^ decimals.length * units + Nat.ofDigitChars 10 decimals 0 := by
    rw [Nat.ofDigitChars_append, Nat.ofDigitChars_ten_toDigits,
      Nat.ofDigitChars_eq_ofDigitChars_zero]
  have power : (0 : ℚ) < 10 ^ decimals.length := by positivity
  rw [decimalValue, digits, zpow_neg, zpow_natCast, ← div_eq_mul_inv, div_lt_iff₀ power]
  have cast : ((10 ^ decimals.length * units + Nat.ofDigitChars 10 decimals 0 : Nat) : ℚ) <
      bound * 10 ^ decimals.length ↔
      (10 ^ decimals.length * units + Nat.ofDigitChars 10 decimals 0 : Int) <
        bound * 10 ^ decimals.length := by
    exact_mod_cast Iff.rfl
  rw [cast]
  have positive : (0 : Int) < 10 ^ decimals.length := by positivity
  have small : (Nat.ofDigitChars 10 decimals 0 : Int) < 10 ^ decimals.length := by
    exact_mod_cast (by simpa using fraction)
  constructor
  · intro less
    by_contra large
    have more : bound * 10 ^ decimals.length ≤ 10 ^ decimals.length * units := by
      rw [Int.mul_comm]
      exact Int.mul_le_mul_of_nonneg_left (Int.not_lt.mp large) positive.le
    omega
  · intro less
    have more : 10 ^ decimals.length * ((units : Int) + 1) ≤ 10 ^ decimals.length * bound :=
      Int.mul_le_mul_of_nonneg_left less positive.le
    rw [Int.mul_comm bound]
    rw [Int.mul_add, Int.mul_one] at more
    omega

/-- The digits of a number are a decimal number for the shell. -/
theorem isDecimal_toDigits (number : Nat) : isDecimal (Nat.toDigits 10 number) := by
  have digits : (Nat.toDigits 10 number).all Char.isDigit :=
    List.all_eq_true.mpr (isDigit_toDigits number)
  rw [isDecimal, digits, Bool.true_and, Bool.or_eq_true, decide_eq_true_eq]
  rcases Nat.eq_zero_or_pos number with zero | positive
  · exact .inl (by rw [zero]; rfl)
  · -- The first digit of a positive number is not zero.
    obtain ⟨first, others, start, nonzero⟩ := toDigits_head positive
    exact .inr (by simp [start, nonzero])

/-- A sample counts as busy exactly when its value is below the limit. -/
theorem isBusy_text (sample : Sample) : isBusy otherLess settings sample.text =
    decide (sample.value < settings.cpuIdleMax.toInt) := by
  -- The number fits into 64 bits, so that the shell compares it as it is.
  have less : isLess otherLess settings (Nat.toDigits 10 sample.units) =
      decide ((sample.units : Int) < settings.cpuIdleMax.toInt) := by
    rw [isLess, if_pos (isDecimal_toDigits _), Nat.ofDigitChars_ten_toDigits]
    refine decide_eq_decide.mpr ?_
    rw [Int64.lt_iff_toInt_lt, Int64.toInt_ofNat_of_lt sample.small]
  rw [isBusy, withoutFraction_text, less, Sample.value]
  simp only [decimalValue_lt_iff _ sample.digits, ne_eq, Nat.toDigits_ne_nil, not_false_eq_true,
    decide_true, Bool.true_and]

/-! ### Upgrades -/

@[simp] theorem values_concat (scrapes : List Scrape) (scrape : Scrape) :
    values (scrapes ++ [scrape]) = values scrapes ++ (scrape.sample.map Sample.value).toList := by
  -- A scrape without a sample has no value to add.
  rw [values, List.filterMap_append]
  cases sample : scrape.sample with
  | none => simp [values, sample]
  | some _ => simp [values, sample]

/-- The metric is read as text that is empty where there is no sample. -/
theorem cpuIdle_eq_nil_iff (scrape : Scrape) :
    cpuIdle scrape.metrics = [] ↔ scrape.sample = none := by
  -- The text of a sample has a digit at least.
  rw [cpuIdle_metrics]
  cases scrape.sample with
  | none => simp
  | some sample => simp [sample.text_ne_nil]

/-- The loop counts the low values at the end, where the first value of all only starts it. -/
theorem after_metrics (scrapes : List Scrape) :
    after otherLess settings (scrapes.map Scrape.metrics) =
      ⟨values scrapes = [],
        streak (· < (settings.cpuIdleMax.toInt : ℚ)) (values scrapes).tail⟩ := by
  -- A round without a value changes nothing, and one with a value goes on with the streak.
  induction scrapes using List.reverseRecOn with
  | nil => rfl
  | append_singleton scrapes scrape ih =>
    rw [List.map_append, List.map_singleton, after, List.foldl_append, ← after, ih,
      List.foldl_cons, List.foldl_nil, round, values_concat]
    cases found : scrape.sample with
    | none =>
      have missing := (cpuIdle_eq_nil_iff scrape).mpr found
      by_cases first : values scrapes = []
      · simp [missing, first]
      · simp [missing, first]
    | some sample =>
      have text : cpuIdle scrape.metrics = sample.text := by
        rw [cpuIdle_metrics, found, Option.map_some, Option.getD_some]
      by_cases first : values scrapes = []
      · simp [text, first, sample.text_ne_nil]
      · simp [text, first, sample.text_ne_nil, isBusy_text, List.tail_append_of_ne_nil]

/-- What a service with one node says about its processors, in percent and tenths of it. -/
def scrapeOf (units tenths : Nat) (small : units < 2 ^ 63) : Scrape where
  before := ["# TYPE cpu_usage_idle gauge".toList]
  sample := some
    { labels := totalLabel
      total := List.infix_rfl
      units := units
      decimals := Nat.toDigits 10 tenths
      small := small
      digits := isDigit_toDigits tenths }
  behind := []
  others := by
    intro line member idle
    rw [List.append_nil, List.mem_singleton] at member
    exact absurd (member ▸ idle.1) (by decide)

end AivenExamples.Autoscaling
