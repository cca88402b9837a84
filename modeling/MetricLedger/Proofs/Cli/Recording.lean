import MetricLedger.Proofs.Cli.Negative
import MetricLedger.Proofs.Cli.Sending

/-!
# Recording from the command line

A measurement that is given on the command line is recorded if its value is a finite number, however
that is written. The exception are negative numbers that the command line does not know for such: it
looks for a named argument in them, finds none, and refuses them, unless two dashes say that no more
of these will come.
-/

namespace MetricLedger.Cli

/-- The text does not begin as a named argument does. -/
def Undashed (word : String) : Prop := word.toList.head? ≠ some '-'

instance (word : String) : Decidable (Undashed word) :=
  inferInstanceAs (Decidable (word.toList.head? ≠ some '-'))

/-- The text is taken for a value: it begins with no dash, or is known for a negative number. -/
def TakenForValue (word : String) : Prop :=
  Undashed word ∨ ∃ cs, word.toList = '-' :: cs ∧ Reading.Simple cs

namespace Reading

/-! ## Single words -/

theorem readWord_of_undashed {word : String} (h : Undashed word) (c : Command)
    (rest : List String) (r : Reading) : r.readWord c word rest = r.readText c word := by
  unfold Undashed at h
  unfold readWord
  split
  · rename_i cs
    simp [cs] at h
  · rename_i cs
    simp [cs] at h
  · rename_i cs
    simp [cs] at h
  · rfl

theorem readWord_of_dash {word : String} {letter : Char} {letters : List Char}
    (h : word.toList = '-' :: letter :: letters) (other : letter ≠ '-') (c : Command)
    (rest : List String) (r : Reading) :
    r.readWord c word rest =
      if r.isNegative c (letter :: letters) then r.readText c word
      else r.readShort c (letter :: letters) := by
  unfold readWord
  rw [h]
  split
  · rename_i same
    simp [other] at same
  · rename_i same
    simp [other] at same
  · rename_i same
    cases same
    rfl
  · rename_i none
    exact absurd rfl (none letter letters)

/-- No other command follows the name of a command that has none. -/
theorem read_record {r : Reading} (going : r.trailing = false) (word : String)
    (rest : List String) : read .record r (word :: rest) =
      (r.readWord .record word rest >>= fun r => read .record r rest) := by
  have alone : (if r.awaiting then none else Command.sub? .record word) = none := by
    split <;> rfl
  conv_lhs => unfold Reading.read
  rw [going, alone]
  rfl

/-! ## The words of a measurement

What has been read behind each of them; a word is kept until the next one comes, or the end. -/

def withName (name : String) : Reading where
  pending := some (.positional Command.metricName, some name)
  position := 1

def withType (name type : String) : Reading where
  given := [⟨.positional Command.metricName, some (.text name)⟩]
  pending := some (.positional Command.metricType, some type)
  position := 2

def withValue (trailing : Bool) (name type text : String) : Reading where
  given := [⟨.positional Command.metricName, some (.text name)⟩,
    ⟨.positional Command.metricType, some (.text type)⟩]
  pending := some (.positional Command.metricValue, some text)
  trailing
  position := 3

/-- What has been read at the end. -/
def withAll (trailing : Bool) (name type : String) (v : Double) : Reading where
  given := [⟨.positional Command.metricName, some (.text name)⟩,
    ⟨.positional Command.metricType, some (.text type)⟩,
    ⟨.positional Command.metricValue, some (.double v)⟩]
  trailing
  position := 3

theorem readText_name (name : String) : readText .record name {} = .ok (withName name) := rfl

theorem readText_type (name type : String) :
    (withName name).readText .record type = .ok (withType name type) := rfl

theorem readText_value (name type text : String) :
    (withType name type).readText .record text = .ok (withValue false name type text) := rfl

section
variable {name type text : String}

theorem read_type (named : Undashed name) (typed : Undashed type) (rest : List String) :
    read .record {} (name :: type :: rest) = read .record (withType name type) rest := by
  rw [read_record rfl, readWord_of_undashed named, readText_name, ok_bind, read_record rfl,
    readWord_of_undashed typed, readText_type, ok_bind]

theorem read_trailing (name type text : String) :
    read .record (withType name type) ["--", text] = .ok (withValue true name type text, none) := by
  rfl

theorem finish_withValue (trailing : Bool) {v : Double}
    (reads : Number.Decimal.parse text.toList = .ok v) :
    (withValue trailing name type text).finish .record = .ok (withAll trailing name type v) := by
  unfold finish settle
  simp only [withValue, take, Arg.kind, Command.metricValue, ValueKind.read, reads]
  rfl

/-! ## The word of a value -/

/-- Behind its dash a negative number has the form of a number without a sign. -/
theorem forms_of_dash {cs : List Char} (dash : text.toList = '-' :: cs) {v : Double}
    (reads : Number.Decimal.parse text.toList = .ok v) (finite : v.isFinite = true) :
    (∃ letter letters, cs = letter :: letters ∧ isPart letter = true) ∧
      (isNumber cs = true ↔ Simple cs) := by
  obtain ⟨u, number⟩ := Number.Decimal.unsigned?_of_parse reads finite
  rw [dash] at number
  obtain ⟨m, x, whole, mantissa, exponent⟩ := Number.Decimal.forms_of_unsigned? number
  change cs = m ++ x at whole
  subst whole
  obtain ⟨letter, letters, rfl⟩ := List.exists_cons_of_ne_nil mantissa.ne_nil
  exact ⟨⟨letter, letters ++ x, rfl, isPart_mantissa mantissa letter (List.mem_cons_self ..)⟩,
    isNumber_iff mantissa exponent⟩

theorem readWord_of_taken {v : Double} (reads : Number.Decimal.parse text.toList = .ok v)
    (finite : v.isFinite = true) (taken : TakenForValue text) (rest : List String) :
    (withType name type).readWord .record text rest =
      .ok (withValue false name type text) := by
  rcases taken with undashed | ⟨cs, dash, simple⟩
  · rw [readWord_of_undashed undashed, readText_value]
  · obtain ⟨⟨letter, letters, rfl, part⟩, number⟩ := forms_of_dash dash reads finite
    have other : letter ≠ '-' := by rintro rfl; exact absurd part (by decide)
    have negative : (withType name type).isNegative .record (letter :: letters) = true :=
      number.mpr simple
    rw [readWord_of_dash dash other, if_pos negative, readText_value]

/-- A number that is not taken for a value is refused like an argument that is not known. -/
theorem readWord_of_refused (name type : String) {v : Double}
    (reads : Number.Decimal.parse text.toList = .ok v) (finite : v.isFinite = true)
    (refused : ¬ TakenForValue text) (rest : List String) :
    ∃ letter : Char, (withType name type).readWord .record text rest =
      .error (.fault ⟨.record, [], .unknown s!"-{letter}" (some .asValue)⟩) := by
  obtain ⟨undashed, notSimple⟩ := not_or.mp refused
  obtain ⟨cs, dash⟩ := List.head?_eq_some_iff.mp (not_not.mp undashed)
  obtain ⟨⟨letter, letters, rfl, part⟩, number⟩ := forms_of_dash dash reads finite
  have other : letter ≠ '-' := by rintro rfl; exact absurd part (by decide)
  have noHelp : letter ≠ 'h' := by rintro rfl; exact absurd part (by decide)
  have unknown : Command.short? .record letter = none := by
    simpa [Command.short?, Command.named, Command.helpFlag] using noHelp.symm
  have positive : (withType name type).isNegative .record (letter :: letters) = false :=
    Bool.eq_false_iff.mpr (mt number.mp fun simple => notSimple ⟨_, dash, simple⟩)
  refine ⟨letter, ?_⟩
  rw [readWord_of_dash dash other, positive, readShort, unknown]
  rfl

end

end Reading

/-! ## The command -/

/-- What has been read in front of the command. -/
def Reading.inMemory : Reading := { given := [⟨.named Command.inMemory, none⟩] }

theorem parse_record (environment : String → Option String) (args : List String) :
    Invocation.parse environment ("--in-memory" :: "record" :: args) = (do
      let (r, _) ← Reading.read .record {} args
      let r ← r.finish .record
      return .ofReading environment .inMemory (Invocation.orderOf .record r)) := by
  rfl

/-- The invocation that asks for a record in memory. -/
def recordInMemory (environment : String → Option String) (m : Measurement) : Invocation :=
  .ofReading environment .inMemory (.record m)

section
variable {env : Service.Environment σ} {environment : String → Option String} {stamp : Stamp}

theorem parse_withValue {args : List String} (trailing : Bool) {name type text : String}
    (words : Reading.read .record {} args = .ok (.withValue trailing name type text, none))
    {v : Double} (reads : Number.Decimal.parse text.toList = .ok v) :
    Invocation.parse environment ("--in-memory" :: "record" :: args) =
      .ok (recordInMemory environment ⟨name, type, v⟩) := by
  rw [parse_record, words, ok_bind]
  simp only [Reading.finish_withValue trailing reads]
  rfl

theorem eval_record_inMemory {i : Invocation} (volatile : i.inMemory = true) {m : Measurement}
    (valid : m.Valid) :
    ((record env stamp i m).eval {}).1 =
      .ok (.exited 0 (printed (.stored (.ofMeasurement m stamp))) "") := by
  rw [record, Measurement.check_eq_ok_iff.mpr ⟨rfl, valid⟩, openStore, volatile]
  rfl

theorem exits_record {args : List String} {m : Measurement} (valid : m.Valid)
    (parsed : Invocation.parse environment args = .ok (recordInMemory environment m)) :
    (run env environment stamp args).Exits 0 (printed (.stored (.ofMeasurement m stamp))) := by
  have ending : (run env environment stamp args).ending =
      .exited 0 (printed (.stored (.ofMeasurement m stamp))) "" := by
    rw [Run.run_eq parsed]
    exact Run.ending_ofWork (eval_record_inMemory rfl valid)
  exact Run.exits_of_ending ending

variable {name type text : String} {v : Double}

/-- A value that is taken for a named argument ends the run before anything is done. -/
theorem stops_of_refused (env : Service.Environment σ) (environment : String → Option String)
    (stamp : Stamp) (named : Undashed name) (typed : Undashed type)
    (reads : Number.Decimal.parse text.toList = .ok v) (finite : v.isFinite = true)
    (refused : ¬ TakenForValue text) :
    ∃ letter : Char, run env environment stamp ["--in-memory", "record", name, type, text] =
      .ofStop environment (.fault ⟨.record, [], .unknown s!"-{letter}" (some .asValue)⟩) := by
  obtain ⟨letter, unknown⟩ :=
    Reading.readWord_of_refused name type reads finite refused []
  refine ⟨letter, ?_⟩
  rw [run, parse_record, Reading.read_type named typed, Reading.read_record rfl, unknown]
  rfl

end

/-- A finite number is recorded however it is written, if it is taken for a value, and always behind
two dashes. Otherwise it is refused, like an argument that is not known. -/
theorem finite_number_recorded_iff (env : Service.Environment σ)
    (environment : String → Option String) (stamp : Stamp) {name type text : String} {v : Double}
    (named : Text.isBlank name = false) (typed : Text.isBlank type = false)
    (undashedName : Undashed name) (undashedType : Undashed type)
    (reads : Number.Decimal.parse text.toList = .ok v) (finite : v.isFinite = true) :
    let answer (args : List String) := run env environment stamp ("--in-memory" :: "record" :: args)
    let made : Record := ⟨stamp.id, name, type, v, stamp.time⟩
    (TakenForValue text → (answer [name, type, text]).Exits 0 (printed (.stored made))) ∧
    (¬ TakenForValue text →
      (answer [name, type, text]).Exits 2 "" ∧ (answer [name, type, text]).events = []) ∧
    (answer [name, type, "--", text]).Exits 0 (printed (.stored made)) := by
  intro answer made
  have valid : Measurement.Valid ⟨name, type, v⟩ := ⟨named, typed, finite⟩
  have recorded {args : List String} (parsed : Invocation.parse environment args =
      .ok (recordInMemory environment ⟨name, type, v⟩)) :
      (run env environment stamp args).Exits 0 (printed (.stored made)) := by
    have same : made = .ofMeasurement ⟨name, type, v⟩ stamp := rfl
    rw [same]
    exact exits_record valid parsed
  have begun (rest : List String) : Reading.read .record {} (name :: type :: rest) =
      Reading.read .record (.withType name type) rest :=
    Reading.read_type undashedName undashedType rest
  refine ⟨fun taken => recorded (parse_withValue false ?_ reads), fun refused => ?_,
    recorded (parse_withValue true ?_ reads)⟩
  · rw [begun, Reading.read_record rfl, Reading.readWord_of_taken reads finite taken, ok_bind]
    rfl
  · obtain ⟨letter, stopped⟩ :=
      stops_of_refused env environment stamp undashedName undashedType reads finite refused
    have here : answer [name, type, text] = _ := stopped
    rw [here]
    exact ⟨Run.exits_of_ending rfl, rfl⟩
  · exact (begun ["--", text]).trans (Reading.read_trailing name type text)

/-- A negative number with a scale that is not negative itself is recorded. -/
theorem negative_scale_recorded :
    let answer := run (scripted []) (fun _ => none) ⟨⟨1⟩, default⟩
      ["--in-memory", "record", "temp_delta", "gauge", "-2.5e3"]
    let made : Record := ⟨⟨1⟩, "temp_delta", "gauge", Double.negate (.ofNat 2500), default⟩
    answer.Exits 0 (printed (.stored made)) := by
  intro answer made
  have named : Text.isBlank "temp_delta" = false := by decide
  have typed : Text.isBlank "gauge" = false := by decide
  have reads : Number.Decimal.parse "-2.5e3".toList = .ok (Double.negate (.ofNat 2500)) :=
    eq_ok_of_toOption (by decide +kernel)
  obtain ⟨recorded, -, -⟩ := finite_number_recorded_iff (scripted []) (fun _ => none)
    ⟨⟨1⟩, default⟩ named typed (by decide) (by decide) reads (by decide +kernel)
  exact recorded (.inr ⟨['2', '.', '5', 'e', '3'], rfl, by decide, by simp⟩)

/-- A small negative number is finite like any other, and is not recorded: its dash is taken for
that of a named argument. -/
theorem small_negative_refused :
    let answer := run (scripted []) (fun _ => none) ⟨⟨1⟩, default⟩
      ["--in-memory", "record", "temp_delta", "gauge", "-1e-5"]
    ∃ v, Number.Decimal.parse "-1e-5".toList = .ok v ∧ v.isFinite = true ∧
      ∀ output, ¬ answer.Exits 0 output := by
  intro answer
  have reads : Number.Decimal.parse "-1e-5".toList = .ok (Double.ofRatio true 1 100000) :=
    eq_ok_of_toOption (by decide +kernel)
  have finite : (Double.ofRatio true 1 100000).isFinite = true := by decide +kernel
  have refused : ¬ TakenForValue "-1e-5" := by
    rintro (undashed | ⟨cs, dash, -, plain⟩)
    · exact undashed rfl
    · have letters : "-1e-5".toList = ['-', '1', 'e', '-', '5'] := by decide +kernel
      cases letters.symm.trans dash
      exact plain '-' (by simp) (by simp)
  have named : Undashed "temp_delta" := by decide
  have typed : Undashed "gauge" := by decide
  obtain ⟨letter, stopped⟩ := stops_of_refused (scripted []) (fun _ => none) ⟨⟨1⟩, default⟩ named
    typed reads finite refused
  refine ⟨_, reads, finite, fun output exits => ?_⟩
  obtain ⟨complaint, ending⟩ := exits.ending
  have here : answer = _ := stopped
  rw [here] at ending
  cases ending

end MetricLedger.Cli
