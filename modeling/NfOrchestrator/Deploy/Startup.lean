import Mathlib.Data.Nat.Digits.Lemmas
import NfOrchestrator.Data.Cycle
import NfOrchestrator.Deploy.Verdicts
import NfOrchestrator.Effects.Trace
import NfOrchestrator.Text.Find

/-!
# NfOrchestrator.Deploy.Startup

**How long kubectl took to get going**, read off its log. klog's first stamp carries a time
of day and so does the clock at the spawn, and `startupDelay` takes their difference. The
regular expression finds the first line with a stamp (`firstStamp_eq`), both readings are
those of a clock that starts over at midnight (`localTimeAt_seconds`), and folding them
gives the delay back (`startup_recovered`).
-/

namespace NfOrchestrator.Deploy

open Unicode

/-! ### klog's stamps -/

/-- `n` decimal digits. -/
abbrev Digits (n : ℕ) : Type := { cs : List Char // cs.length = n ∧ ∀ c ∈ cs, isDecimal c = true }

/-- The number they spell. -/
def Digits.value {n : ℕ} (digits : Digits n) : ℕ :=
  Json.ofDigits (digits.1.filterMap decimalValue?)

theorem decimalValue?_lt {c : Char} {v : ℕ} (h : decimalValue? c = some v) : v < 10 := by
  rw [decimalValue?, Option.map_eq_some_iff] at h
  obtain ⟨z, hz, rfl⟩ := h
  have hrange := List.find?_some hz
  simp only [Bool.and_eq_true, decide_eq_true_eq] at hrange
  omega

theorem ofDigits_eq (digits : List ℕ) : Json.ofDigits digits = Nat.ofDigits 10 digits.reverse := by
  rw [Nat.ofDigits_eq_foldr, List.foldr_reverse, Json.ofDigits]
  simp only [Nat.cast_id, add_comm]

theorem Digits.value_lt {n : ℕ} (digits : Digits n) : digits.value < 10 ^ n := by
  have hlength : (digits.1.filterMap decimalValue?).length ≤ n :=
    (List.length_filterMap_le _ _).trans digits.2.1.le
  have hbound : Nat.ofDigits 10 (digits.1.filterMap decimalValue?).reverse <
      10 ^ (digits.1.filterMap decimalValue?).reverse.length := by
    refine Nat.ofDigits_lt_base_pow_length (by norm_num) fun v hv => ?_
    rw [List.mem_reverse, List.mem_filterMap] at hv
    obtain ⟨c, -, hc⟩ := hv
    exact decimalValue?_lt hc
  rw [List.length_reverse] at hbound
  rw [Digits.value, ofDigits_eq]
  exact hbound.trans_le (Nat.pow_le_pow_right (by norm_num) hlength)

/-- What klog writes before a message, as far as the time goes. -/
@[ext] structure Stamp where
  severity : Char
  date : Digits 4
  hour : Digits 2
  minute : Digits 2
  second : Digits 2
  micros : Digits 6
  severity_mem : severity ∈ ['I', 'W', 'E', 'F']

namespace Stamp

def text (s : Stamp) : List Char :=
  s.severity :: (s.date.1 ++ ' ' :: (s.hour.1 ++ ':' :: (s.minute.1 ++ ':' ::
    (s.second.1 ++ '.' :: s.micros.1))))

/-- The time it carries, without the microseconds. -/
def time (s : Stamp) : LocalTime := ⟨s.hour.value, s.minute.value, s.second.value⟩

/-- The time of day it carries, in seconds. -/
def seconds (s : Stamp) : ℚ := s.time.seconds + s.micros.value / 1000000

/-- The match that reads it. -/
def cursor (s : Stamp) (before rest : List Char) : Cursor :=
  ⟨s.text.reverse ++ before, rest,
    [(4, s.micros.1), (3, s.second.1), (2, s.minute.1), (1, s.hour.1)]⟩

end Stamp

theorem Digits.eq_of_append {n : ℕ} {digits digits' : Digits n} {rest rest' : List Char}
    (h : digits.1 ++ rest = digits'.1 ++ rest') : digits = digits' ∧ rest = rest' := by
  obtain ⟨hdigits, hrest⟩ := List.append_inj h (digits.2.1.trans digits'.2.1.symm)
  exact ⟨Subtype.ext hdigits, hrest⟩

/-- A text begins with one stamp at most. -/
theorem Stamp.eq_of_append {s s' : Stamp} {rest rest' : List Char}
    (h : s.text ++ rest = s'.text ++ rest') : s = s' ∧ rest = rest' := by
  simp only [text, List.cons_append, List.append_assoc] at h
  obtain ⟨hseverity, h⟩ := List.cons.inj h
  obtain ⟨hdate, h⟩ := Digits.eq_of_append h
  obtain ⟨hhour, h⟩ := Digits.eq_of_append (List.cons.inj h).2
  obtain ⟨hminute, h⟩ := Digits.eq_of_append (List.cons.inj h).2
  obtain ⟨hsecond, h⟩ := Digits.eq_of_append (List.cons.inj h).2
  obtain ⟨hmicros, h⟩ := Digits.eq_of_append (List.cons.inj h).2
  exact ⟨Stamp.ext hseverity hdate hhour hminute hsecond hmicros, h⟩

/-! ### The first stamp of a log -/

theorem match_digits_iff {n : ℕ} {before cs : List Char} {groups : List (ℕ × List Char)}
    {d : Cursor} : (Regex.digit.times n).Match ⟨before, cs, groups⟩ d ↔
      ∃ (digits : Digits n) (rest : List Char), cs = digits.1 ++ rest ∧
        d = ⟨digits.1.reverse ++ before, rest, groups⟩ := by
  rw [Regex.digit, Regex.match_times_char_iff]
  constructor
  · intro hex
    obtain ⟨xs, rest, hcs, hlength, hdigits, hd⟩ := hex
    exact ⟨⟨xs, hlength, hdigits⟩, rest, hcs, hd⟩
  · intro hex
    obtain ⟨digits, rest, hcs, hd⟩ := hex
    exact ⟨digits.1, rest, hcs, digits.2.1, digits.2.2, hd⟩

theorem match_captured_iff {n k : ℕ} {before cs : List Char} {groups : List (ℕ × List Char)}
    {d : Cursor} : (Regex.group k (Regex.digit.times n)).Match ⟨before, cs, groups⟩ d ↔
      ∃ (digits : Digits n) (rest : List Char), cs = digits.1 ++ rest ∧
        d = ⟨digits.1.reverse ++ before, rest, (k, digits.1) :: groups⟩ := by
  rw [Regex.match_group_iff]
  constructor
  · intro hex
    obtain ⟨e, he, rfl⟩ := hex
    obtain ⟨digits, rest, rfl, rfl⟩ := match_digits_iff.mp he
    exact ⟨digits, rest, rfl, by rw [Regex.upTo_append]⟩
  · intro hex
    obtain ⟨digits, rest, rfl, rfl⟩ := hex
    exact ⟨_, match_digits_iff.mpr ⟨digits, rest, rfl, rfl⟩, by rw [Regex.upTo_append]⟩

/-- A captured number and the character before it. -/
theorem match_field_iff {n k : ℕ} {c : Char} {r : Regex} {before cs : List Char}
    {groups : List (ℕ × List Char)} {e : Cursor} :
    (Regex.seq (.lit [c]) (.seq (.group k (Regex.digit.times n)) r)).Match ⟨before, cs, groups⟩ e ↔
      ∃ (digits : Digits n) (rest : List Char), cs = c :: (digits.1 ++ rest) ∧
        r.Match ⟨digits.1.reverse ++ c :: before, rest, (k, digits.1) :: groups⟩ e := by
  constructor
  · intro h
    obtain ⟨_, hlit, h⟩ := Regex.match_seq_iff.mp h
    obtain ⟨_, rfl, rfl⟩ := Regex.match_lit_iff.mp hlit
    obtain ⟨_, hcaptured, h⟩ := Regex.match_seq_iff.mp h
    obtain ⟨digits, rest, rfl, rfl⟩ := match_captured_iff.mp hcaptured
    exact ⟨digits, rest, rfl, h⟩
  · intro hex
    obtain ⟨digits, rest, rfl, h⟩ := hex
    exact .seq (Regex.match_lit_iff.mpr ⟨_, rfl, rfl⟩)
      (.seq (match_captured_iff.mpr ⟨digits, rest, rfl, rfl⟩) h)

theorem match_lineStart_iff {before cs : List Char} {groups : List (ℕ × List Char)} {d : Cursor} :
    Regex.lineStart.Match ⟨before, cs, groups⟩ d ↔
      (∀ c ∈ before.head?, c = '\n') ∧ d = ⟨before, cs, groups⟩ := by
  rw [Regex.lineStart, Regex.match_assert_iff]
  cases before <;> simp

/-- The expression matches the stamps at the starts of lines. -/
theorem match_firstLine_iff {before cs : List Char} {d : Cursor} :
    firstLine.Match ⟨before, cs, []⟩ d ↔
      (∀ c ∈ before.head?, c = '\n') ∧
        ∃ (s : Stamp) (rest : List Char), cs = s.text ++ rest ∧ d = s.cursor before rest := by
  constructor
  · intro h
    obtain ⟨_, hstart, hline⟩ := Regex.match_seq_iff.mp h
    obtain ⟨hbefore, rfl⟩ := match_lineStart_iff.mp hstart
    obtain ⟨_, hseverity, hafter⟩ := Regex.match_seq_iff.mp hline
    obtain ⟨severity, _, rfl, hmem, rfl⟩ := Regex.match_char_iff.mp hseverity
    obtain ⟨_, hdate, htime⟩ := Regex.match_seq_iff.mp hafter
    obtain ⟨date, _, rfl, rfl⟩ := match_digits_iff.mp hdate
    obtain ⟨hour, _, rfl, hminute⟩ := match_field_iff.mp htime
    obtain ⟨minute, _, rfl, hsecond⟩ := match_field_iff.mp hminute
    obtain ⟨second, _, rfl, hfraction⟩ := match_field_iff.mp hsecond
    obtain ⟨_, hpoint, hmicros⟩ := Regex.match_seq_iff.mp hfraction
    obtain ⟨_, rfl, rfl⟩ := Regex.match_lit_iff.mp hpoint
    obtain ⟨micros, rest, rfl, rfl⟩ := match_captured_iff.mp hmicros
    refine ⟨hbefore, ⟨severity, date, hour, minute, second, micros, ?_⟩, rest, ?_, ?_⟩
    · simpa using hmem
    · simp [Stamp.text]
    · simp [Stamp.cursor, Stamp.text]
  · intro hx
    obtain ⟨hbefore, s, rest, rfl, rfl⟩ := hx
    have hcursor : s.cursor before rest = ⟨s.micros.1.reverse ++ '.' :: (s.second.1.reverse ++
        ':' :: (s.minute.1.reverse ++ ':' :: (s.hour.1.reverse ++ ' ' :: (s.date.1.reverse ++
        s.severity :: before)))), rest,
        [(4, s.micros.1), (3, s.second.1), (2, s.minute.1), (1, s.hour.1)]⟩ := by
      simp [Stamp.cursor, Stamp.text]
    have htext : s.text ++ rest = s.severity :: (s.date.1 ++ ' ' :: (s.hour.1 ++ ':' ::
        (s.minute.1 ++ ':' :: (s.second.1 ++ '.' :: (s.micros.1 ++ rest))))) := by
      simp [Stamp.text]
    rw [hcursor, htext]
    refine .seq (match_lineStart_iff.mpr ⟨hbefore, rfl⟩)
      (.seq (.char (decide_eq_true s.severity_mem))
        (.seq (match_digits_iff.mpr ⟨s.date, _, rfl, rfl⟩) ?_))
    refine match_field_iff.mpr ⟨s.hour, _, rfl, match_field_iff.mpr ⟨s.minute, _, rfl,
      match_field_iff.mpr ⟨s.second, _, rfl, ?_⟩⟩⟩
    exact .seq (Regex.match_lit_iff.mpr ⟨_, rfl, rfl⟩)
      (match_captured_iff.mpr ⟨s.micros, _, rfl, rfl⟩)

/-- The first line of the log that begins with a stamp begins with this one. -/
def FirstStamped (log : String) (s : Stamp) : Prop :=
  ∃ (unstamped : List (List Char)) (rest : List Char),
    log.toList = unstamped.flatMap (· ++ ['\n']) ++ (s.text ++ rest) ∧
      ∀ line ∈ unstamped, '\n' ∉ line ∧ ∀ s' : Stamp, ¬s'.text <+: line

theorem Stamp.newline_notMem (s : Stamp) : '\n' ∉ s.text := by
  have hdigits : ∀ {n : ℕ} (digits : Digits n), '\n' ∉ digits.1 := fun digits h => by
    have hnot : isDecimal '\n' = false := by decide
    rw [digits.2.2 _ h] at hnot
    cases hnot
  have hseverity : '\n' ≠ s.severity := fun h => by
    have hmem := s.severity_mem
    rw [← h] at hmem
    exact absurd hmem (by decide)
  simp [Stamp.text, hdigits, hseverity]

/-- The first stamp is what the regular expression reads. -/
theorem firstStamp_eq {log : String} {s : Stamp} (h : FirstStamped log s) :
    firstStamp log = some s.seconds := by
  obtain ⟨unstamped, rest, hlog, hunstamped⟩ := h
  obtain ⟨before, hbefore, hskip⟩ : ∃ before : List Char, (∀ c ∈ before.head?, c = '\n') ∧
      firstLine.search log = firstLine.searchFrom before (s.text ++ rest) := by
    refine ⟨(unstamped.flatMap (· ++ ['\n'])).reverse ++ [], ?_, ?_⟩
    · cases unstamped using List.reverseRecOn <;> simp
    · rw [Regex.search, hlog]
      refine Regex.searchFrom_lines fun line hline => ⟨(hunstamped line hline).1, ?_⟩
      intro before after d hmatch
      obtain ⟨-, s', rest', htext, -⟩ := match_firstLine_iff.mp hmatch
      exact (hunstamped line hline).2 s'
        (Str.prefix_of_prefix_append_cons s'.newline_notMem ⟨rest', htext.symm⟩)
  have hhere : firstLine.searchFrom before (s.text ++ rest) = some (s.cursor before rest) := by
    refine Regex.searchFrom_here fun e => match_firstLine_iff.trans ⟨?_, ?_⟩
    · intro hmatch
      obtain ⟨-, s', rest', htext, rfl⟩ := hmatch
      obtain ⟨rfl, rfl⟩ := Stamp.eq_of_append htext
      rfl
    · intro he
      exact ⟨hbefore, s, rest, rfl, he⟩
  rw [firstStamp, hskip, hhere]
  rfl

/-! ### The local time -/

/-- `time.localtime(t)`, where the local time is `offset` seconds ahead of UTC. -/
def localTimeAt (offset : ℤ) (t : ℚ) : LocalTime :=
  let second := (⌊t⌋ + offset) % 86400
  { hour := (second / 3600).toNat
    minute := (second % 3600 / 60).toNat
    second := (second % 60).toNat }

theorem day_pos : (0 : ℚ) < 86400 := by norm_num

/-- The clock at the spawn, its fraction included, starts over at midnight. -/
theorem localTimeAt_seconds (offset : ℤ) (t : ℚ) :
    (localTimeAt offset t).seconds + Int.fract t = toIcoMod day_pos 0 (t + offset) := by
  have hseconds : (localTimeAt offset t).seconds = ((⌊t⌋ + offset) % 86400 : ℤ) := by
    have hparts : ((localTimeAt offset t).hour : ℤ) * 3600 + (localTimeAt offset t).minute * 60 +
        (localTimeAt offset t).second = (⌊t⌋ + offset) % 86400 := by
      simp only [localTimeAt]
      omega
    rw [LocalTime.seconds]
    exact_mod_cast hparts
  have hlow : (0 : ℚ) ≤ ((⌊t⌋ + offset) % 86400 : ℤ) := by
    exact_mod_cast Int.emod_nonneg _ (by norm_num)
  have hhigh : (((⌊t⌋ + offset) % 86400 : ℤ) : ℚ) + 1 ≤ 86400 := by
    exact_mod_cast Int.emod_lt_of_pos (⌊t⌋ + offset) (by norm_num)
  have hdays : (((⌊t⌋ + offset) % 86400 : ℤ) : ℚ) + 86400 * ((⌊t⌋ + offset) / 86400 : ℤ) =
      (⌊t⌋ + offset : ℤ) := by
    exact_mod_cast Int.emod_add_mul_ediv (⌊t⌋ + offset) 86400
  have hfloor := Int.floor_add_fract t
  rw [eq_comm, toIcoMod_eq_iff, hseconds]
  refine ⟨⟨?_, ?_⟩, (⌊t⌋ + offset) / 86400, ?_⟩
  · linarith [Int.fract_nonneg t]
  · linarith [Int.fract_lt_one t]
  · rw [zsmul_eq_mul]
    push_cast at hdays ⊢
    linarith

/-! ### The delay -/

/-- What `startupDelay` makes of the log and of the local time at the spawn. -/
def startupAt (spawned : ℚ) (atSpawn : LocalTime) (log : String) : Option ℚ :=
  (firstStamp log).map fun first => foldMidnight (first - (atSpawn.seconds + Int.fract spawned))

section startupAt

variable {spawned : ℚ} {log : String} {x : Except Exc (Option ℚ)}

theorem traces_startupDelay {tr : List (Event sig)} (h : (startupDelay log spawned).Traces tr x) :
    ∃ atSpawn, x = .ok (startupAt spawned atSpawn log) := by
  unfold startupDelay at h
  unfold startupAt
  cases hfirst : firstStamp log with
  | none =>
      rw [hfirst] at h
      exact ⟨⟨0, 0, 0⟩, h.2⟩
  | some first =>
      rw [hfirst] at h
      obtain ⟨atSpawn, _, -, -, rfl⟩ := h
      exact ⟨atSpawn, rfl⟩

theorem exists_startupDelay (spawned : ℚ) (atSpawn : LocalTime) (log : String) :
    ∃ tr, (startupDelay log spawned).Traces tr (.ok (startupAt spawned atSpawn log)) := by
  unfold startupDelay startupAt
  cases firstStamp log with
  | none => exact ⟨[], rfl, rfl⟩
  | some first => exact ⟨[⟨.localtime spawned, atSpawn⟩], atSpawn, [], rfl, rfl, rfl⟩

/-- A host whose local time is `offset` seconds ahead of UTC. -/
def zone (offset : ℤ) : Env sig Unit := fun o _ r _ =>
  match o, r with
  | .localtime t, here => here = localTimeAt offset t
  | _, _ => True

theorem zone_total (offset : ℤ) : (zone offset).Total := by
  intro o w
  have r : Resp o := blankReply o
  cases o with
  | localtime t => exact ⟨localTimeAt offset t, (), rfl⟩
  | _ => exact ⟨r, (), trivial⟩

theorem ends_startupDelay (offset : ℤ) :
    (startupDelay log spawned).Ends (zone offset) () x ↔
      x = .ok (startupAt spawned (localTimeAt offset spawned) log) := by
  refine Prog.ends_iff_eq (zone_total offset) ?_
  unfold startupDelay startupAt
  cases firstStamp log with
  | none => rfl
  | some first =>
      intro atSpawn _ hzone
      obtain rfl : atSpawn = localTimeAt offset spawned := hzone
      rfl

end startupAt

/-- The delay from the spawn to a stamp. -/
def delayFrom (s : Stamp) (spawned : ℚ) (atSpawn : LocalTime) : ℚ :=
  foldMidnight (s.seconds - (atSpawn.seconds + Int.fract spawned))

theorem startupAt_eq {log : String} {s : Stamp} (h : FirstStamped log s) (spawned : ℚ)
    (atSpawn : LocalTime) : startupAt spawned atSpawn log = some (delayFrom s spawned atSpawn) := by
  rw [startupAt, firstStamp_eq h]
  rfl

theorem foldMidnight_eq (delay : ℚ) : foldMidnight delay = max 0 (Cycle.fold 86400 delay) := by
  rw [foldMidnight, Cycle.fold]
  norm_num

/-! ### What it is worth -/

/-- The stamp shows the local time of day of `t`. -/
structure Stamp.Carries (s : Stamp) (offset : ℤ) (t : ℚ) : Prop where
  time : s.time = localTimeAt offset t
  micros : (s.micros.value : ℚ) / 1000000 = Int.fract t

/-- The stamp shows it with everything below a microsecond cut off. -/
structure Stamp.CarriesCut (s : Stamp) (offset : ℤ) (t : ℚ) : Prop where
  time : s.time = localTimeAt offset t
  micros : (s.micros.value : ℤ) = ⌊Int.fract t * 1000000⌋

theorem Stamp.CarriesCut.lost {s : Stamp} {offset : ℤ} {t : ℚ} (h : s.CarriesCut offset t) :
    ∃ lost, 0 ≤ lost ∧ lost < 1 / 1000000 ∧
      (s.micros.value : ℚ) / 1000000 = Int.fract t - lost := by
  have hcast : (s.micros.value : ℚ) = ⌊Int.fract t * 1000000⌋ := by exact_mod_cast h.micros
  have hfloor := Int.floor_add_fract (Int.fract t * 1000000)
  have hless := Int.fract_lt_one (Int.fract t * 1000000)
  refine ⟨Int.fract (Int.fract t * 1000000) / 1000000, ?_, ?_, ?_⟩
  · exact div_nonneg (Int.fract_nonneg _) (by norm_num)
  · linarith
  · rw [hcast]
    linarith

/-- The time of day is one that a clock shows. -/
structure LocalTime.Valid (t : LocalTime) : Prop where
  hour : t.hour < 24
  minute : t.minute < 60
  second : t.second < 60

/-- A stamp that is `lost` seconds early shows the time of day of the instant before. -/
theorem Stamp.seconds_eq {s : Stamp} {offset : ℤ} {t lost : ℚ} (hlost : 0 ≤ lost)
    (htime : s.time = localTimeAt offset t)
    (hmicros : (s.micros.value : ℚ) / 1000000 = Int.fract t - lost) :
    s.seconds = toIcoMod day_pos 0 (t - lost + offset) := by
  have hclock := localTimeAt_seconds offset t
  obtain ⟨-, hbelow⟩ := toIcoMod_mem_Ico' day_pos (t + offset)
  have hpositive : 0 ≤ s.seconds := by
    rw [Stamp.seconds, LocalTime.seconds]
    positivity
  have hseconds : s.seconds = toIcoMod day_pos 0 (t + offset) - lost := by
    rw [Stamp.seconds, htime, hmicros]
    linarith
  rw [eq_comm, toIcoMod_eq_iff]
  refine ⟨⟨hpositive, by linarith⟩, toIcoDiv day_pos 0 (t + offset), ?_⟩
  rw [hseconds, ← self_sub_toIcoDiv_zsmul]
  ring

/-- From a stamp that is less than a microsecond early, the delay comes out as much too short. -/
theorem delayFrom_eq {s : Stamp} {offset : ℤ} {spawned d lost : ℚ} (hd : 0 ≤ d) (hd' : d < 43200)
    (hlost : 0 ≤ lost) (hlost' : lost < 1 / 1000000)
    (htime : s.time = localTimeAt offset (spawned + d))
    (hmicros : (s.micros.value : ℚ) / 1000000 = Int.fract (spawned + d) - lost) :
    delayFrom s spawned (localTimeAt offset spawned) = max 0 (d - lost) := by
  have hshort : |d - lost| < 86400 / 2 := by
    rw [abs_lt]
    constructor <;> linarith
  have hinstant : spawned + d - lost + offset = spawned + offset + (d - lost) := by ring
  rw [delayFrom, foldMidnight_eq, localTimeAt_seconds, Stamp.seconds_eq hlost htime hmicros,
    hinstant, Cycle.fold_sub day_pos _ hshort]

/-- Whatever the local time at the spawn, a valid stamp gives half a day at most. -/
theorem delayFrom_mem {s : Stamp} (hvalid : s.time.Valid) (spawned : ℚ) (atSpawn : LocalTime) :
    0 ≤ delayFrom s spawned atSpawn ∧ delayFrom s spawned atSpawn ≤ 43200 := by
  rw [delayFrom, foldMidnight_eq]
  refine ⟨le_max_left _ _, max_le (by norm_num) ?_⟩
  have hfirst : s.seconds < 86400 := by
    have hwhole : s.time.hour * 3600 + s.time.minute * 60 + s.time.second + 1 ≤ 86400 := by
      have hhour := hvalid.hour
      have hminute := hvalid.minute
      have hsecond := hvalid.second
      omega
    have hwhole' : s.time.seconds + 1 ≤ 86400 := by
      rw [LocalTime.seconds]
      exact_mod_cast hwhole
    have hfraction : (s.micros.value : ℚ) / 1000000 < 1 := by
      rw [div_lt_one (by norm_num)]
      exact_mod_cast s.micros.value_lt
    rw [Stamp.seconds]
    linarith
  have hspawn : 0 ≤ atSpawn.seconds := by
    rw [LocalTime.seconds]
    positivity
  have hhalf : (43200 : ℚ) = 86400 / 2 := by norm_num
  rw [hhalf]
  refine Cycle.fold_le ?_
  linarith [Int.fract_nonneg spawned]

/-- From a log whose first stamp shows the local time `d` seconds after the spawn, less than
half a day, the delay is `d`, across midnight too; a stamp cut off to the microsecond loses less
than one. From a stamp of a valid time it is never negative, nor longer than half a day. -/
theorem startup_recovered {log : String} {s : Stamp} (h : FirstStamped log s) (spawned : ℚ) :
    (∀ (offset : ℤ) (d : ℚ), 0 ≤ d → d < 43200 → s.Carries offset (spawned + d) → ∀ x,
      (startupDelay log spawned).Ends (zone offset) () x ↔ x = .ok (some d)) ∧
    (∀ (offset : ℤ) (d : ℚ), 0 ≤ d → d < 43200 → s.CarriesCut offset (spawned + d) →
      ∃ lost, 0 ≤ lost ∧ lost < 1 / 1000000 ∧ ∀ x,
        (startupDelay log spawned).Ends (zone offset) () x ↔ x = .ok (some (max 0 (d - lost)))) ∧
    (s.time.Valid → ∀ tr x, (startupDelay log spawned).Traces tr x →
      ∃ delay, x = .ok (some delay) ∧ 0 ≤ delay ∧ delay ≤ 43200) := by
  refine ⟨fun offset d hd hd' hcarries x => ?_, fun offset d hd hd' hcut => ?_,
    fun hvalid tr x htr => ?_⟩
  · have hmicros : (s.micros.value : ℚ) / 1000000 = Int.fract (spawned + d) - 0 := by
      rw [hcarries.micros, sub_zero]
    rw [ends_startupDelay, startupAt_eq h, delayFrom_eq hd hd' le_rfl (by norm_num) hcarries.time
      hmicros, sub_zero, max_eq_right hd]
  · obtain ⟨lost, hlost, hlost', hmicros⟩ := hcut.lost
    refine ⟨lost, hlost, hlost', fun x => ?_⟩
    rw [ends_startupDelay, startupAt_eq h, delayFrom_eq hd hd' hlost hlost' hcut.time hmicros]
  · obtain ⟨atSpawn, rfl⟩ := traces_startupDelay htr
    rw [startupAt_eq h]
    exact ⟨_, rfl, delayFrom_mem hvalid spawned atSpawn⟩

/-- A kubectl spawned a tenth of a second before midnight that logs a tenth after it. -/
def midnightLog : String :=
  "loading plugins\nI0927 00:00:00.100000   4242 loader.go:407] Config loaded from file\n"

def midnightStamp : Stamp where
  severity := 'I'
  date := ⟨['0', '9', '2', '7'], rfl, List.all_eq_true.mp (by decide +kernel)⟩
  hour := ⟨['0', '0'], rfl, List.all_eq_true.mp (by decide +kernel)⟩
  minute := ⟨['0', '0'], rfl, List.all_eq_true.mp (by decide +kernel)⟩
  second := ⟨['0', '0'], rfl, List.all_eq_true.mp (by decide +kernel)⟩
  micros := ⟨['1', '0', '0', '0', '0', '0'], rfl, List.all_eq_true.mp (by decide +kernel)⟩
  severity_mem := by decide

theorem midnightLog_stamped : FirstStamped midnightLog midnightStamp := by
  refine ⟨["loading plugins".toList], "   4242 loader.go:407] Config loaded from file\n".toList,
    by decide +kernel, ?_⟩
  intro line hline
  obtain rfl := List.mem_singleton.mp hline
  refine ⟨by decide, fun s' hs' => ?_⟩
  obtain ⟨rest, hrest⟩ := hs'
  have hseverity : s'.severity = 'l' := (List.cons.inj hrest).1
  have hmem := s'.severity_mem
  rw [hseverity] at hmem
  exact absurd hmem (by decide)

theorem startup_recovered_midnight :
    (startupDelay midnightLog (863999 / 10)).Ends (zone 0) () (.ok (some (1 / 5))) := by
  have hfloor : ⌊(863999 / 10 + 1 / 5 : ℚ)⌋ = 86400 := by
    rw [Int.floor_eq_iff]
    norm_num
  have hhour : midnightStamp.hour.value = 0 := by decide +kernel
  have hminute : midnightStamp.minute.value = 0 := by decide +kernel
  have hsecond : midnightStamp.second.value = 0 := by decide +kernel
  have hmicros : midnightStamp.micros.value = 100000 := by decide +kernel
  have hcarries : midnightStamp.Carries 0 (863999 / 10 + 1 / 5) := by
    constructor
    · rw [Stamp.time, hhour, hminute, hsecond, localTimeAt, hfloor]
      rfl
    · rw [hmicros, Int.fract, hfloor]
      norm_num
  exact ((startup_recovered midnightLog_stamped _).1 0 (1 / 5) (by norm_num) (by norm_num)
    hcarries _).mpr rfl

end NfOrchestrator.Deploy
