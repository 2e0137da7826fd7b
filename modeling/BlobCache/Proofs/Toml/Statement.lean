import BlobCache.Proofs.Toml.Quotation
import BlobCache.Proofs.Toml.Word
import BlobCache.Toml.Statement

/-!
# Lines read back

A document that is made of plain lines is read back line by line. `Reader.Reads` says that a line
is read as a statement, whatever lines follow; the header of a table is such a line
(`Reader.reads_header`), and so is a bare key with an equals sign and the written form of a value
(`Reader.reads_entry`): of a text in its quotes (`Reader.value_quoted`), of a truth value, or of a
number (`Reader.value_toDigits`). A document of such lines and of empty ones has the statements of
the former (`Reader.Consists.statements_eq`).
-/

namespace BlobCache.Toml

namespace Reader

variable {α β : Type} {c d : Char} {s key line rest word : List Char} {v : Value}

/-! ### Sequences of readers -/

/-- A sequence reads with the second reader what the first one has left. -/
theorem bind_apply (x : Reader α) (f : α → Reader β) (s : List Char) :
    (x >>= f) s = (x s).bind fun p => f p.1 p.2 :=
  rfl

theorem pure_apply (a : α) (s : List Char) : (pure a : Reader α) s = some (a, s) :=
  rfl

private theorem next?_apply (s : List Char) : next? s = some (s.head?, s) :=
  rfl

private theorem expect_cons (c : Char) (s : List Char) : expect c (c :: s) = some ((), s) := by
  rw [expect.eq_def]
  simp

private theorem skipBlanks_apply (s : List Char) : skipBlanks s = some ((), s.dropWhile isBlank) :=
  rfl

/-- No blank is passed over where none stands. -/
private theorem dropWhile_isBlank_cons (h : isBlank c = false) (s : List Char) :
    (c :: s).dropWhile isBlank = c :: s := by
  simp [h]

/-! ### Stretches of characters -/

/-- A stretch of characters of a kind ends where one of another kind follows. -/
private theorem takeWhile_append {p : Char → Bool} (hs : ∀ c ∈ s, p c = true)
    (hrest : rest.head?.all (!p ·)) : (s ++ rest).takeWhile p = s := by
  rw [List.takeWhile_append_of_pos hs]
  cases rest with
  | nil => simp
  | cons d rest =>
    have hd : p d = false := by simpa using hrest
    simp [hd]

/-- Behind a stretch of characters of a kind comes what follows it. -/
private theorem dropWhile_append {p : Char → Bool} (hs : ∀ c ∈ s, p c = true)
    (hrest : rest.head?.all (!p ·)) : (s ++ rest).dropWhile p = rest := by
  rw [List.dropWhile_append_of_pos hs]
  cases rest with
  | nil => rfl
  | cons d rest =>
    have hd : p d = false := by simpa using hrest
    simp [hd]

/-! ### Keys -/

/-- A key that needs no quotes. -/
structure IsBare (key : List Char) : Prop where
  ne_nil : key ≠ []
  isKeyChar : ∀ c ∈ key, isKeyChar c = true

theorem isBare_of_all (hne : key ≠ []) (hall : key.all isKeyChar = true) : IsBare key :=
  ⟨hne, List.all_eq_true.mp hall⟩

/-- Characters of keys are neither blanks nor quotes nor brackets, and begin no comment. -/
private theorem ne_of_isKeyChar (h : isKeyChar c = true) (hc : isKeyChar d = false) : c ≠ d := by
  rintro rfl
  rw [h] at hc
  cases hc

private theorem isBlank_of_isKeyChar (h : isKeyChar c = true) : isBlank c = false := by
  have hspace : c ≠ ' ' := ne_of_isKeyChar h (by decide)
  have htab : c ≠ '\t' := ne_of_isKeyChar h (by decide)
  simp [isBlank, hspace, htab]

/-- A bare key is read up to its end. -/
private theorem keyPart_bare (h : IsBare key) (hrest : rest.head?.all (!isKeyChar ·)) :
    keyPart (key ++ rest) = some (String.ofList key, rest) := by
  obtain ⟨c, key, rfl⟩ := List.exists_cons_of_ne_nil h.ne_nil
  have hc := h.isKeyChar c List.mem_cons_self
  have hdouble : c ≠ '"' := ne_of_isKeyChar hc (by decide)
  have hsingle : c ≠ '\'' := ne_of_isKeyChar hc (by decide)
  rw [keyPart.eq_def]
  split
  · rename_i heq
    exact absurd (List.cons.inj heq).1 hdouble
  · rename_i heq
    exact absurd (List.cons.inj heq).1 hsingle
  · simp only [takeWhile_append h.isKeyChar hrest, dropWhile_append h.isKeyChar hrest]
    rw [if_neg (List.cons_ne_nil c key)]

/-- A key without dots has one part. -/
private theorem key_bare (h : IsBare key) (rest : List Char) (hrest : rest.head?.all (!isKeyChar ·))
    (hdot : (rest.dropWhile isBlank).head? ≠ some '.') :
    Reader.key (key ++ rest) = some ([String.ofList key], rest.dropWhile isBlank) := by
  have hskip : (key ++ rest).dropWhile isBlank = key ++ rest := by
    obtain ⟨c, key, rfl⟩ := List.exists_cons_of_ne_nil h.ne_nil
    exact dropWhile_isBlank_cons (isBlank_of_isKeyChar (h.isKeyChar c List.mem_cons_self)) _
  rw [Reader.key, keyUpTo]
  simp only [bind_apply, skipBlanks_apply, Option.bind_some, hskip, keyPart_bare h hrest,
    next?_apply]
  rw [if_neg hdot]
  rfl

/-! ### Values -/

/-- A text is read from the form in which it is written. -/
theorem value_quoted (text : List Char) (hrest : ∀ q : Quotation, rest.head? ≠ some q.mark) :
    value (quoted text ++ rest) = some (.string (String.ofList text), rest) := by
  have hread := Quotation.textBehind_behindMark (Quotation.holds_choose text) (hrest _)
  rw [quoted, Quotation.write_eq, List.cons_append]
  obtain hmark | hmark := (Quotation.choose text).mark_eq
  · rw [hmark] at hread ⊢
    change (textBehind '"' _).map _ = _
    rw [hread]
    rfl
  · rw [hmark] at hread ⊢
    change (textBehind '\'' _).map _ = _
    rw [hread]
    rfl

/-- A word that does not start with a date is read up to its end. -/
private theorem word_append (hword : ∀ c ∈ word, isWordChar c = true)
    (hdate : afterDate? word = none) (hvalue : wordValue? word = some v)
    (hrest : rest.head?.all (!isWordChar ·)) :
    Reader.word (word ++ rest) = some (v, rest) := by
  rw [Reader.word]
  simp only [takeWhile_append hword hrest, dropWhile_append hword hrest, hdate, hvalue,
    Option.map_some]

/-- A value that starts like a word is one. -/
private theorem value_word (hne : word ≠ []) (hword : ∀ c ∈ word, isWordChar c = true)
    (rest : List Char) : value (word ++ rest) = Reader.word (word ++ rest) := by
  obtain ⟨c, word, rfl⟩ := List.exists_cons_of_ne_nil hne
  have hc := hword c List.mem_cons_self
  have hbracket : c ≠ '[' := fun heq => by simp [heq, isWordChar, Char.isAlphanum] at hc
  have hbrace : c ≠ '\x7b' := fun heq => by simp [heq, isWordChar] at hc
  have hdouble : c ≠ '"' := fun heq => by simp [heq, isWordChar] at hc
  have hsingle : c ≠ '\'' := fun heq => by simp [heq, isWordChar] at hc
  rw [List.cons_append, value, valueUpTo, bind_apply, next?_apply, Option.bind_some,
    List.head?_cons]
  simp [hbracket, hbrace, scalar, bind_apply, next?_apply, hdouble, hsingle]

/-- A truth value is read as itself. -/
theorem value_boolean (b : Bool) (hrest : rest.head?.all (!isWordChar ·)) :
    value ((if b then "true" else "false").toList ++ rest) = some (.boolean b, rest) := by
  cases b
  · have hword : ∀ c ∈ "false".toList, isWordChar c = true := List.all_eq_true.mp (by decide)
    exact (value_word (by decide) hword rest).trans (word_append hword (by decide) rfl hrest)
  · have hword : ∀ c ∈ "true".toList, isWordChar c = true := List.all_eq_true.mp (by decide)
    exact (value_word (by decide) hword rest).trans (word_append hword (by decide) rfl hrest)

/-- A number is read from its digits. -/
theorem value_toDigits {n : Nat} (h : n < integerBound) (hrest : rest.head?.all (!isWordChar ·)) :
    value (Nat.toDigits 10 n ++ rest) = some (.integer n, rest) := by
  have hdigits : ∀ c ∈ Nat.toDigits 10 n, c.isDigit = true := fun c hc =>
    Nat.isDigit_of_mem_toDigits (by omega) (by omega) hc
  have hword : ∀ c ∈ Nat.toDigits 10 n, isWordChar c = true := fun c hc =>
    isWordChar_of_isDigit (hdigits c hc)
  rw [value_word Nat.toDigits_ne_nil hword]
  exact word_append hword (afterDate?_of_digits hdigits) (wordValue?_toDigits h) hrest

/-! ### Lines -/

/-- A line is read as a statement, whatever follows it. -/
structure Reads (line : List Char) (s : Statement) : Prop where
  head? : line.head?.any fun c => !isBlank c && c != '#' && c != '\n' && c != '\r'
  statement : ∀ rest, statement (line ++ '\n' :: rest) = some (s, '\n' :: rest)

/-- The end of a line is read with the line. -/
private theorem lineEnd_break (rest : List Char) : lineEnd ('\n' :: rest) = some ((), rest) := by
  simp [lineEnd, isBlank, dropComment]

/-- One bracket alone starts the header of a table. -/
theorem statement_header (hc : c ≠ '[') (s : List Char) :
    Reader.statement ('[' :: c :: s) =
      (do
        let path ← Reader.key
        expect ']'
        return .header path : Reader Statement) (c :: s) := by
  rw [Reader.statement.eq_def]
  split
  · rename_i heq
    exact absurd (List.cons.inj (List.cons.inj heq).2).1 hc
  · rename_i heq
    rw [← (List.cons.inj heq).2]
  · rename_i hnot
    exact absurd rfl (hnot (c :: s))

/-- What starts otherwise is an entry. -/
theorem statement_entry (hc : c ≠ '[') (s : List Char) :
    Reader.statement (c :: s) =
      (do
        let (path, v) ← entry value
        return .entry path v : Reader Statement) (c :: s) := by
  rw [Reader.statement.eq_def]
  split
  · rename_i heq
    exact absurd (List.cons.inj heq).1 hc
  · rename_i heq
    exact absurd (List.cons.inj heq).1 hc
  · rfl

/-- The header of a table is read. -/
theorem reads_header (h : IsBare key) :
    Reads ('[' :: key ++ [']']) (.header [String.ofList key]) where
  head? := by simp [isBlank]
  statement rest := by
    have hread := key_bare h (']' :: '\n' :: rest) (by simp [isKeyChar])
      (by simp [isBlank])
    have hblank : (']' :: '\n' :: rest).dropWhile isBlank = ']' :: '\n' :: rest := by
      simp [isBlank]
    rw [hblank] at hread
    obtain ⟨c, tail, rfl⟩ := List.exists_cons_of_ne_nil h.ne_nil
    have hc : c ≠ '[' := ne_of_isKeyChar (h.isKeyChar c List.mem_cons_self) (by decide)
    simp only [List.append_assoc, List.cons_append, List.nil_append] at hread ⊢
    rw [statement_header hc, bind_apply, hread, Option.bind_some, bind_apply, expect_cons]
    rfl

/-- A bare key with a value is read. -/
theorem reads_entry {written : List Char} (h : IsBare key)
    (hvalue : ∀ rest, value (written ++ '\n' :: rest) = some (v, '\n' :: rest))
    (hblank : written.head?.all (!isBlank ·)) (hne : written ≠ []) :
    Reads (key ++ " = ".toList ++ written) (.entry [String.ofList key] v) := by
  obtain ⟨c, tail, rfl⟩ := List.exists_cons_of_ne_nil h.ne_nil
  have hc := h.isKeyChar c List.mem_cons_self
  constructor
  · have hcomment : c ≠ '#' := ne_of_isKeyChar hc (by decide)
    have hbreak : c ≠ '\n' := ne_of_isKeyChar hc (by decide)
    have hreturn : c ≠ '\r' := ne_of_isKeyChar hc (by decide)
    simp [isBlank_of_isKeyChar hc, hcomment, hbreak, hreturn]
  · intro rest
    have hread := key_bare h (' ' :: '=' :: ' ' :: (written ++ '\n' :: rest))
      (by simp [isKeyChar]) (by simp [isBlank])
    have hequals : (' ' :: '=' :: ' ' :: (written ++ '\n' :: rest)).dropWhile isBlank =
        '=' :: ' ' :: (written ++ '\n' :: rest) := by
      simp [isBlank]
    have hwritten : (' ' :: (written ++ '\n' :: rest)).dropWhile isBlank =
        written ++ '\n' :: rest := by
      obtain ⟨d, more, rfl⟩ := List.exists_cons_of_ne_nil hne
      have hd : isBlank d = false := by simpa using hblank
      have hspace : isBlank ' ' = true := by decide
      simp [hd, hspace]
    rw [hequals] at hread
    have hbracket : c ≠ '[' := ne_of_isKeyChar hc (by decide)
    have hspaces : " = ".toList = [' ', '=', ' '] := by decide
    simp only [hspaces, List.append_assoc, List.cons_append, List.nil_append] at hread ⊢
    rw [statement_entry hbracket, bind_apply, entry, bind_apply, hread, Option.bind_some,
      bind_apply, expect_cons, Option.bind_some, bind_apply, skipBlanks_apply, Option.bind_some,
      hwritten, bind_apply, hvalue]
    rfl

/-! ### Documents -/

/-- A document of lines that are read as statements, with empty lines between them. -/
inductive Consists : List Char → List Statement → Prop
  /-- Nothing says nothing. -/
  | nil : Consists [] []
  /-- An empty line says nothing. -/
  | blank {text : List Char} {statements : List Statement} (h : Consists text statements) :
    Consists ('\n' :: text) statements
  /-- A line comes before the lines that follow it. -/
  | line {line text : List Char} {s : Statement} {statements : List Statement}
    (hline : Reads line s) (h : Consists text statements) :
    Consists (line ++ '\n' :: text) (s :: statements)

/-- A line is read before the lines that follow it. -/
theorem statements_line {st : Statement} (h : Reads line st) (fuel : Nat) (rest : List Char) :
    statements (fuel + 1) (line ++ '\n' :: rest) = (statements fuel rest).map (st :: ·) := by
  have hstatement := h.statement rest
  have hhead := h.head?
  cases line with
  | nil => simp at hhead
  | cons c line =>
    simp only [List.head?_cons, Option.any_some, Bool.and_eq_true, bne_iff_ne,
      Bool.not_eq_true'] at hhead
    obtain ⟨⟨⟨hblank, hcomment⟩, hbreak⟩, hreturn⟩ := hhead
    rw [List.cons_append] at hstatement ⊢
    rw [statements.eq_def]
    simp only [dropWhile_isBlank_cons hblank, hcomment, hbreak, hreturn, or_self, if_false]
    rw [hstatement]
    simp only [Option.bind_eq_bind, Option.bind_some, lineEnd_break]
    cases statements fuel rest <;> rfl

/-- The statements of a document are read, as long as there is fuel for each of its characters. -/
theorem Consists.statements_eq {text : List Char} {sts : List Statement} (h : Consists text sts)
    {fuel : Nat} (hfuel : text.length < fuel) : statements fuel text = some sts := by
  induction h generalizing fuel with
  | nil =>
    obtain ⟨fuel, rfl⟩ := Nat.exists_eq_succ_of_ne_zero (Nat.ne_of_gt hfuel)
    rfl
  | blank _ ih =>
    obtain ⟨fuel, rfl⟩ := Nat.exists_eq_succ_of_ne_zero (Nat.ne_of_gt (Nat.zero_lt_of_lt hfuel))
    rw [statements.eq_def]
    simp only [List.length_cons] at hfuel
    have hrest := ih (Nat.lt_of_succ_lt_succ hfuel)
    simp [isBlank, lineEnd_break, hrest]
  | line hline _ ih =>
    obtain ⟨fuel, rfl⟩ := Nat.exists_eq_succ_of_ne_zero (Nat.ne_of_gt (Nat.zero_lt_of_lt hfuel))
    simp only [List.length_append, List.length_cons] at hfuel
    rw [statements_line hline, ih (by omega)]
    rfl

end Reader

/-- What a document says is what its lines say. The reader takes statements until the text is used
up, and every line takes it further (`Consists.statements_eq`). -/
theorem document?_of_consists {text : List Char} {statements : List Statement}
    (h : Reader.Consists text statements) (hmark : text.head? ≠ some '\ufeff') :
    document? text = Table.ofStatements? statements := by
  have hplain : dropByteOrderMark text = text := by
    rw [dropByteOrderMark.eq_def]
    split
    · simp at hmark
    · rfl
  rw [document?, hplain, h.statements_eq (Nat.lt_succ_self _)]
  rfl

end BlobCache.Toml
