import BlobCache.Config.Settings
import BlobCache.Proofs.Toml.Statement

/-!
# Settings read back

The document that is written for settings is made of the lines of `Settings.statements`
(`Settings.consists_lines`), these fill the two tables `Settings.entries`
(`Settings.ofStatements?_statements`), and from these tables the settings are taken
(`Settings.ofEntries?_entries`). So a document reads back as the settings that it was written for,
whatever characters their texts hold, as long as their number has a written form
(`Settings.ofText?_lines`).
-/

namespace BlobCache.Settings

open Toml

variable {s : Settings}

/-! ### What a document says -/

/-- The entry for a directory, if one is set. -/
def directoryStatement : Option Path → List Statement
  | none => []
  | some path => [.entry ["directory"] (.string path.text)]

/-- The statements of the document that sets these settings. -/
def statements (s : Settings) : List Statement :=
  [.header ["general"], .entry ["verbose"] (.boolean s.verbose),
    .entry ["log_format"] (.string s.logFormat), .header ["cache"]] ++
    (directoryStatement s.directory ++ [.entry ["capacity_hint"] (.integer s.capacityHint)])

/-- The tables of the document that sets these settings. -/
def entries (s : Settings) : Entries :=
  [("general", .table {} [("verbose", .boolean s.verbose), ("log_format", .string s.logFormat)]),
    ("cache", .table {} (((s.directory.map fun path => ("directory", .string path.text)).toList ++
      [("capacity_hint", .integer s.capacityHint)])))]

/-! ### From the text to the statements -/

/-- A line break ends everything that is written before it. -/
private theorem head?_break_ne_mark (rest : List Char) (q : Quotation) :
    ('\n' :: rest).head? ≠ some q.mark := by
  cases q <;> simp [Quotation.mark]

/-- The written form of a text starts with its quote. -/
private theorem head?_quoted (text : List Char) : (quoted text).head?.all (!isBlank ·) := by
  rw [quoted, Quotation.write_eq]
  obtain hmark | hmark := (Quotation.choose text).mark_eq
  · simp [hmark, isBlank]
  · simp [hmark, isBlank]

/-- The line that sets a text. -/
private theorem reads_text {key : List Char} (h : Reader.IsBare key) (text : String) :
    Reader.Reads (key ++ " = ".toList ++ quoted text.toList)
      (.entry [String.ofList key] (.string text)) := by
  refine Reader.reads_entry h (fun rest => ?_) (head?_quoted text.toList) ?_
  · rw [Reader.value_quoted text.toList (head?_break_ne_mark rest), String.ofList_toList]
  · rw [quoted, Quotation.write_eq]
    exact List.cons_ne_nil _ _

/-- The line that sets a truth value. -/
private theorem reads_boolean {key : List Char} (h : Reader.IsBare key) (b : Bool) :
    Reader.Reads (key ++ " = ".toList ++ (if b then "true" else "false").toList)
      (.entry [String.ofList key] (.boolean b)) :=
  Reader.reads_entry h (fun rest => Reader.value_boolean b rfl) (by cases b <;> decide)
    (by cases b <;> decide)

/-- The line that sets a number. -/
private theorem reads_number {key : List Char} (h : Reader.IsBare key) {n : Nat}
    (hn : n < integerBound) :
    Reader.Reads (key ++ " = ".toList ++ Nat.toDigits 10 n)
      (.entry [String.ofList key] (.integer n)) := by
  refine Reader.reads_entry h (fun rest => Reader.value_toDigits hn rfl) ?_ Nat.toDigits_ne_nil
  cases hdigits : Nat.toDigits 10 n with
  | nil => rfl
  | cons c cs =>
    have hc : c.isDigit = true :=
      Nat.isDigit_of_mem_toDigits (b := 10) (n := n) (by omega) (by omega) (by simp [hdigits])
    have hspace : c ≠ ' ' := fun heq => by simp [heq] at hc
    have htab : c ≠ '\t' := fun heq => by simp [heq] at hc
    simp [isBlank, hspace, htab]

/-- The numbers that a document can hold are those that it can be read with. -/
private theorem le_greatestNumber_iff {n : Nat} : n ≤ greatestNumber ↔ n < integerBound := by
  have hdef : greatestNumber = integerBound - 1 := rfl
  have hpos : 0 < integerBound := by
    unfold integerBound
    omega
  omega

/-- The line that sets a directory, if there is one. -/
private theorem consists_directoryLine {text : List Char} {sts : List Statement}
    (directory : Option Path) (h : Reader.Consists text sts) :
    Reader.Consists (directoryLine directory ++ text) (directoryStatement directory ++ sts) := by
  cases directory with
  | none =>
    have hline : directoryLine none = [] := rfl
    have hstatement : directoryStatement none = [] := rfl
    rwa [hline, hstatement, List.nil_append, List.nil_append]
  | some path =>
    have hline : directoryLine (some path) =
        "directory".toList ++ " = ".toList ++ quoted path.text.toList ++ ['\n'] := by
      have hsplit : "directory = ".toList = "directory".toList ++ " = ".toList := by decide
      rw [← hsplit]
      rfl
    have hkey : Reader.IsBare "directory".toList := Reader.isBare_of_all (by decide) (by decide)
    have hread := Reader.Consists.line (reads_text hkey path.text) h
    rw [String.ofList_toList] at hread
    rw [hline, List.append_assoc, List.singleton_append]
    exact hread

/-- The document that is written has the statements. -/
theorem consists_lines (h : s.capacityHint ≤ greatestNumber) :
    Reader.Consists s.lines s.statements := by
  have hgeneral : Reader.IsBare "general".toList := Reader.isBare_of_all (by decide) (by decide)
  have hverbose : Reader.IsBare "verbose".toList := Reader.isBare_of_all (by decide) (by decide)
  have hformat : Reader.IsBare "log_format".toList := Reader.isBare_of_all (by decide) (by decide)
  have hcache : Reader.IsBare "cache".toList := Reader.isBare_of_all (by decide) (by decide)
  have hcapacity : Reader.IsBare "capacity_hint".toList :=
    Reader.isBare_of_all (by decide) (by decide)
  -- the lines, last one first
  have h₁ := Reader.Consists.line (reads_number hcapacity (le_greatestNumber_iff.mp h)) .nil
  have h₂ := consists_directoryLine s.directory h₁
  have h₃ := (Reader.Consists.line (Reader.reads_header hcache) h₂).blank
  have h₄ := Reader.Consists.line (reads_text hformat s.logFormat) h₃
  have h₅ := Reader.Consists.line (reads_boolean hverbose s.verbose) h₄
  have h₆ := Reader.Consists.line (Reader.reads_header hgeneral) h₅
  have hfirst : "[general]\nverbose = ".toList =
      '[' :: "general".toList ++ [']'] ++ '\n' :: ("verbose".toList ++ " = ".toList) := by decide
  have hsecond : "\nlog_format = ".toList =
      '\n' :: ("log_format".toList ++ " = ".toList) := by decide
  have hthird : "\n\n[cache]\n".toList =
      '\n' :: '\n' :: ('[' :: "cache".toList ++ [']'] ++ ['\n']) := by decide
  have hlast : "capacity_hint = ".toList = "capacity_hint".toList ++ " = ".toList := by decide
  simp only [String.ofList_toList] at h₆
  delta lines
  rw [hfirst, hsecond, hthird, hlast]
  simp only [List.append_assoc, List.cons_append, List.nil_append] at h₆ ⊢
  exact h₆

/-! ### From the statements to the settings -/

/-- The statements fill two tables. -/
theorem ofStatements?_statements (s : Settings) :
    Table.ofStatements? s.statements = some s.entries := by
  obtain ⟨verbose, logFormat, directory, capacityHint⟩ := s
  cases directory <;> rfl

/-- The tables give the settings. -/
theorem ofEntries?_entries (s : Settings) : ofEntries? s.entries = some s := by
  obtain ⟨verbose, logFormat, directory, capacityHint⟩ := s
  cases directory <;> rfl

/-- A document reads back as the settings that it was written for: its lines are read as the
statements (`consists_lines`), these are gathered into tables (`ofStatements?_statements`), and the
settings are taken from the tables (`ofEntries?_entries`). -/
theorem ofText?_lines (h : s.capacityHint ≤ greatestNumber) : ofText? s.lines = some s := by
  have hmark : s.lines.head? ≠ some '\ufeff' := by
    delta lines
    simp
  rw [ofText?, document?_of_consists (consists_lines h) hmark, ofStatements?_statements,
    Option.bind_some, ofEntries?_entries]

end BlobCache.Settings
