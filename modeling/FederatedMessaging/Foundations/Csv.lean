import FederatedMessaging.Foundations.Fallible
import FederatedMessaging.Foundations.PythonText

/-!
# Comma-separated tables

The writer and the reader of the `csv` module, in the dialect `excel` with a chosen set of
characters to quote, and with lines that end in a line feed.

## 1.  Writing

A field is quoted when it has a quote or a special character in it, and quotes inside it are
doubled.  A record of one empty field is written as `""`, so that it is not an empty line.

## 2.  Reading

The reader is a machine.  It is fed a line at a time, and at the end of each line it is told so;
a record may go on over several lines, inside quotes.  A field has a greatest length.

## 3.  The round trip

`Consumes r t r'` says that the machine goes from `r` to `r'` over `t`, with more to come.  A
field takes it from one comma to the next (`consumes_field`), and a line feed ends the record
(`readLines_newline`).  So what is written is read back (`read_write`): a comma and a line feed
must be special, and a carriage return too where one occurs.
-/

namespace FederatedMessaging
namespace Csv

open PythonText

/-! ## 1.  Writing -/

section Writing

variable (special : Char → Bool)

/-- The field in quotes. -/
def quoted (field : Text) : Text :=
  '"' :: (field.flatMap fun c => if c = '"' then ['"', '"'] else [c]) ++ ['"']

/-- A field, as it is written. -/
def writeField (field : Text) : Text :=
  if field.any fun c => c = '"' || special c then quoted field else field

/-- `writerow`. -/
def writeRecord (fields : List Text) : Text :=
  if fields = [[]] then ['"', '"', '\n']
  else [','].intercalate (fields.map (writeField special)) ++ ['\n']

/-- `writerows`. -/
def write (records : List (List Text)) : Text := records.flatMap (writeRecord special)

end Writing

/-! ## 2.  Reading -/

/-- Where the reader stands in a record. -/
inductive Mode where
  | startRecord
  | startField
  | inField
  | inQuoted
  | quoteInQuoted
  | eatLineEnd
  deriving DecidableEq, Repr

/-- `csv.Error`. -/
inductive Failure where
  /-- the field is larger than the limit -/
  | fieldTooLong
  /-- a character after the end of a line -/
  | lineEndInField
  deriving DecidableEq, Repr

/-- The state of the reader: the fields that are complete, and the one it is in. -/
@[ext] structure Reading where
  mode : Mode
  fields : List Text
  field : Text
  deriving DecidableEq

/-- A line ends at these, where it is not inside quotes. -/
def isLineEnd (c : Char) : Bool := c = '\n' || c = '\r'

namespace Reading

/-- The start of a record. -/
def fresh : Reading := ⟨.startRecord, [], []⟩

/-- `parse_save_field`. -/
def save (r : Reading) (mode : Mode) : Reading := ⟨mode, r.fields ++ [r.field], []⟩

variable (limit : ℕ)

/-- `parse_add_char`. -/
def add (r : Reading) (mode : Mode) (c : Char) : Except Failure Reading :=
  if limit ≤ r.field.length then .error .fieldTooLong else .ok ⟨mode, r.fields, r.field ++ [c]⟩

/-- A character where a field is expected. -/
def startField (r : Reading) (c : Char) : Except Failure Reading :=
  if isLineEnd c then .ok (r.save .eatLineEnd)
  else if c = '"' then .ok { r with mode := .inQuoted }
  else if c = ',' then .ok (r.save .startField)
  else r.add limit .inField c

/-- `parse_process_char`, on a character. -/
def char (r : Reading) (c : Char) : Except Failure Reading :=
  match r.mode with
  | .startRecord => if isLineEnd c then .ok { r with mode := .eatLineEnd } else r.startField limit c
  | .startField => r.startField limit c
  | .inField =>
    if isLineEnd c then .ok (r.save .eatLineEnd)
    else if c = ',' then .ok (r.save .startField)
    else r.add limit .inField c
  | .inQuoted => if c = '"' then .ok { r with mode := .quoteInQuoted } else r.add limit .inQuoted c
  | .quoteInQuoted =>
    if c = '"' then r.add limit .inQuoted c
    else if c = ',' then .ok (r.save .startField)
    else if isLineEnd c then .ok (r.save .eatLineEnd)
    else r.add limit .inField c
  | .eatLineEnd => if isLineEnd c then .ok r else .error .lineEndInField

/-- `parse_process_char`, at the end of a line. -/
def endLine (r : Reading) : Reading :=
  match r.mode with
  | .startRecord => r
  | .startField => r.save .startRecord
  | .inField => r.save .startRecord
  | .inQuoted => r
  | .quoteInQuoted => r.save .startRecord
  | .eatLineEnd => { r with mode := .startRecord }

end Reading

/-- The lines of a text that is not translated, with their ends. -/
def rawLines : Text → List Text
  | [] => []
  | c :: t =>
    if c = '\n' ∨ c = '\r' ∧ t.head? ≠ some '\n' then [c] :: rawLines t
    else
      match rawLines t with
      | [] => [[c]]
      | line :: lines => (c :: line) :: lines

section Reading

variable (limit : ℕ)

/-- The records of the lines that remain. -/
def readLines (r : Reading) : List Text → Except Failure (List (List Text))
  | [] => .ok (if r.field ≠ [] ∨ r.mode = .inQuoted then [r.fields ++ [r.field]] else [])
  | line :: lines => do
    let r := (← line.foldlM (Reading.char limit) r).endLine
    if r.mode = .startRecord then do
      let records ← readLines .fresh lines
      pure (r.fields :: records)
    else readLines r lines

/-- `csv.reader`, over a text. -/
def read (t : Text) : Except Failure (List (List Text)) := readLines limit .fresh (rawLines t)

end Reading

/-! ## 3.  The round trip -/

section RoundTrip

variable {limit : ℕ} {r r' r'' : Reading} {t u : Text} {c : Char}

theorem rawLines_ne_nil (hne : t ≠ []) : rawLines t ≠ [] := by
  cases t with
  | nil => exact absurd rfl hne
  | cons c t =>
    unfold rawLines
    split
    · exact List.cons_ne_nil _ _
    · split <;> exact List.cons_ne_nil _ _

/-- A character inside a line is read, and then the rest of the line. -/
theorem readLines_cons_of_not (hend : ¬ (c = '\n' ∨ c = '\r' ∧ t.head? ≠ some '\n')) (hne : t ≠ [])
    (hchar : r.char limit c = .ok r') :
    readLines limit r (rawLines (c :: t)) = readLines limit r' (rawLines t) := by
  rw [rawLines, if_neg hend]
  cases hlines : rawLines t with
  | nil => exact absurd hlines (rawLines_ne_nil hne)
  | cons line lines => simp only [readLines, List.foldlM_cons, hchar, bind, Except.bind]

/-- **One character.**  Where a line ends, the reader must be inside quotes. -/
theorem readLines_cons (hchar : r.char limit c = .ok r') (hne : t ≠ [])
    (hend : isLineEnd c = true → r'.mode = .inQuoted) :
    readLines limit r (rawLines (c :: t)) = readLines limit r' (rawLines t) := by
  by_cases hterminal : c = '\n' ∨ c = '\r' ∧ t.head? ≠ some '\n'
  · have hmode : r'.mode = .inQuoted := by
      refine hend ?_
      rcases hterminal with rfl | ⟨rfl, -⟩ <;> decide
    have hkept : r'.endLine = r' := by rw [Reading.endLine, hmode]
    rw [rawLines, if_pos hterminal]
    simp only [readLines, List.foldlM_cons, List.foldlM_nil, hchar, bind, Except.bind, pure,
      Except.pure, hkept, hmode, reduceCtorEq, if_false]
  · exact readLines_cons_of_not hterminal hne hchar

/-- The machine goes over `t`, whatever comes after it. -/
def Consumes (limit : ℕ) (r : Reading) (t : Text) (r' : Reading) : Prop :=
  ∀ u, u ≠ [] → readLines limit r (rawLines (t ++ u)) = readLines limit r' (rawLines u)

theorem Consumes.refl (r : Reading) : Consumes limit r [] r := fun _ _ => rfl

theorem Consumes.cons (hchar : r.char limit c = .ok r')
    (hend : isLineEnd c = true → r'.mode = .inQuoted) (h : Consumes limit r' t r'') :
    Consumes limit r (c :: t) r'' := fun u hu =>
  (readLines_cons hchar (List.append_ne_nil_of_right_ne_nil t hu) hend).trans (h u hu)

theorem Consumes.trans (h : Consumes limit r t r') (h' : Consumes limit r' u r'') :
    Consumes limit r (t ++ u) r'' := by
  intro v hv
  rw [List.append_assoc, h (u ++ v) (List.append_ne_nil_of_right_ne_nil u hv), h' v hv]

theorem Consumes.single (hchar : r.char limit c = .ok r')
    (hend : isLineEnd c = true → r'.mode = .inQuoted) : Consumes limit r [c] r' :=
  .cons hchar hend (.refl r')

/-! ### Fields -/

/-- A field can be read: it is not too long, and a carriage return in it is quoted. -/
structure Readable (special : Char → Bool) (limit : ℕ) (field : Text) : Prop where
  length : field.length ≤ limit
  returns : '\r' ∈ field → special '\r' = true

/-- Where a field may end. -/
def Mode.EndsField (mode : Mode) : Prop :=
  mode = .startField ∨ mode = .inField ∨ mode = .quoteInQuoted

section Fields

variable {fields : List Text} {field done : Text}

theorem add_eq_ok {mode mode' : Mode} (h : field.length < limit) :
    Reading.add limit ⟨mode, fields, field⟩ mode' c = .ok ⟨mode', fields, field ++ [c]⟩ :=
  if_neg (Nat.not_le.mpr h)

/-- A character that ends nothing, in a field without quotes. -/
theorem char_inField (hend : isLineEnd c = false) (hcomma : c ≠ ',') (h : field.length < limit) :
    Reading.char limit ⟨.inField, fields, field⟩ c = .ok ⟨.inField, fields, field ++ [c]⟩ := by
  show (if isLineEnd c then _ else if c = ',' then _ else Reading.add limit _ .inField c) = _
  rw [if_neg (by rw [hend]; decide), if_neg hcomma, add_eq_ok h]

/-- Such a character at the start of a field. -/
theorem char_startField (hend : isLineEnd c = false) (hcomma : c ≠ ',') (hquote : c ≠ '"')
    (h : 0 < limit) :
    Reading.char limit ⟨.startField, fields, []⟩ c = .ok ⟨.inField, fields, [c]⟩ := by
  show Reading.startField limit _ c = _
  rw [Reading.startField, if_neg (by rw [hend]; decide), if_neg hquote, if_neg hcomma]
  exact add_eq_ok h

/-- A character inside quotes. -/
theorem char_inQuoted (hquote : c ≠ '"') (h : field.length < limit) :
    Reading.char limit ⟨.inQuoted, fields, field⟩ c = .ok ⟨.inQuoted, fields, field ++ [c]⟩ := by
  show (if c = '"' then _ else Reading.add limit _ .inQuoted c) = _
  rw [if_neg hquote, add_eq_ok h]

/-- The second of two quotes. -/
theorem char_quoteInQuoted (h : field.length < limit) :
    Reading.char limit ⟨.quoteInQuoted, fields, field⟩ '"' =
      .ok ⟨.inQuoted, fields, field ++ ['"']⟩ := by
  have hadd := @add_eq_ok limit '"' fields field .quoteInQuoted .inQuoted h
  rw [← hadd]
  rfl

/-- Inside quotes, a doubled quote is a quote and everything else is itself. -/
theorem consumes_quotedBody (h : done.length + field.length ≤ limit) :
    Consumes limit ⟨.inQuoted, fields, done⟩
      (field.flatMap fun c => if c = '"' then ['"', '"'] else [c])
      ⟨.inQuoted, fields, done ++ field⟩ := by
  induction field generalizing done with
  | nil =>
    rw [List.append_nil]
    exact .refl _
  | cons c field ih =>
    rw [List.length_cons] at h
    have hlength : done.length < limit := by omega
    have hlength' : (done ++ [c]).length + field.length ≤ limit := by
      rw [List.length_append, List.length_singleton]
      omega
    have hrest := ih hlength'
    rw [List.append_assoc, List.singleton_append] at hrest
    rw [List.flatMap_cons]
    by_cases hquote : c = '"'
    · subst hquote
      rw [if_pos rfl]
      have hquotes := Consumes.cons (char_quoteInQuoted hlength) (fun _ => rfl) hrest
      exact .cons rfl (fun hend => absurd hend (by decide)) hquotes
    · rw [if_neg hquote]
      exact .cons (char_inQuoted hquote hlength) (fun _ => rfl) hrest

/-- Outside quotes, a character that ends nothing is itself. -/
theorem consumes_plainBody (h : done.length + field.length ≤ limit)
    (hplain : ∀ c ∈ field, isLineEnd c = false ∧ c ≠ ',') :
    Consumes limit ⟨.inField, fields, done⟩ field ⟨.inField, fields, done ++ field⟩ := by
  induction field generalizing done with
  | nil =>
    rw [List.append_nil]
    exact .refl _
  | cons c field ih =>
    rw [List.length_cons] at h
    obtain ⟨hend, hcomma⟩ := hplain c List.mem_cons_self
    have hlength : (done ++ [c]).length + field.length ≤ limit := by
      rw [List.length_append, List.length_singleton]
      omega
    have hrest := ih hlength fun c' hc' => hplain c' (List.mem_cons_of_mem c hc')
    rw [List.append_assoc, List.singleton_append] at hrest
    exact .cons (char_inField hend hcomma (by omega))
      (fun hline => absurd hline (by rw [hend]; decide)) hrest

/-- A line feed ends the record. -/
theorem readLines_newline {mode : Mode} (hmode : mode.EndsField) :
    readLines limit ⟨mode, fields, field⟩ (rawLines ('\n' :: u)) =
      (do pure ((fields ++ [field]) :: (← readLines limit .fresh (rawLines u)))) := by
  rw [rawLines, if_pos (Or.inl rfl)]
  have hchar : Reading.char limit ⟨mode, fields, field⟩ '\n' =
      .ok ⟨.eatLineEnd, fields ++ [field], []⟩ := by
    rcases hmode with rfl | rfl | rfl <;> rfl
  simp only [readLines, List.foldlM_cons, List.foldlM_nil, hchar, bind, Except.bind, pure,
    Except.pure, Reading.endLine, if_true]

/-- At the start of a record, a character that is no line end starts a field. -/
theorem readLines_startRecord (hend : isLineEnd c = false) :
    readLines limit .fresh (rawLines (c :: t)) =
      readLines limit ⟨.startField, [], []⟩ (rawLines (c :: t)) := by
  have hfirst : ∃ line lines, rawLines (c :: t) = (c :: line) :: lines := by
    unfold rawLines
    split
    · exact ⟨_, _, rfl⟩
    · split <;> exact ⟨_, _, rfl⟩
  obtain ⟨line, lines, hlines⟩ := hfirst
  have hchar : Reading.char limit .fresh c = Reading.char limit ⟨.startField, [], []⟩ c := by
    show (if isLineEnd c then _ else Reading.startField limit .fresh c) = _
    rw [if_neg (by rw [hend]; decide)]
    show Reading.startField limit _ c = Reading.startField limit _ c
    simp only [Reading.startField, hend, Bool.false_eq_true, if_false]
    rfl
  rw [hlines, readLines, readLines, List.foldlM_cons, List.foldlM_cons, hchar]

variable {special : Char → Bool} (hcomma : special ',' = true) (hnewline : special '\n' = true)
include hcomma hnewline

/-- A field that is not quoted has none of the characters that mean something. -/
theorem plain_of_not_quoted (h : Readable special limit field)
    (hquoted : ¬ (field.any fun c => c = '"' || special c) = true) :
    ∀ c ∈ field, isLineEnd c = false ∧ c ≠ ',' ∧ c ≠ '"' := by
  intro c hc
  have hnot : c ≠ '"' ∧ special c = false := by
    by_contra hno
    refine hquoted (List.any_eq_true.mpr ⟨c, hc, ?_⟩)
    rw [Bool.or_eq_true, decide_eq_true_iff]
    by_contra hor
    rw [not_or, Bool.not_eq_true] at hor
    exact hno hor
  refine ⟨?_, ?_, hnot.1⟩
  · rw [isLineEnd, Bool.or_eq_false_iff, decide_eq_false_iff_not, decide_eq_false_iff_not]
    refine ⟨fun hc' => ?_, fun hc' => ?_⟩
    · rw [hc', hnewline] at hnot
      exact absurd hnot.2 (by decide)
    · rw [hc', h.returns (hc' ▸ hc)] at hnot
      exact absurd hnot.2 (by decide)
  · intro hc'
    rw [hc', hcomma] at hnot
    exact absurd hnot.2 (by decide)

/-- **A field is read as it was.** -/
theorem consumes_field (h : Readable special limit field) :
    ∃ mode, mode.EndsField ∧
      Consumes limit ⟨.startField, fields, []⟩ (writeField special field)
        ⟨mode, fields, field⟩ := by
  unfold writeField
  split
  · refine ⟨.quoteInQuoted, Or.inr (Or.inr rfl), ?_⟩
    have hlength : ([] : Text).length + field.length ≤ limit := by
      rw [List.length_nil, Nat.zero_add]
      exact h.length
    have hbody : Consumes limit ⟨.inQuoted, fields, []⟩ _ ⟨.inQuoted, fields, [] ++ field⟩ :=
      consumes_quotedBody hlength
    refine .cons rfl (fun _ => rfl) (hbody.trans ?_)
    exact .single rfl fun hend => absurd hend (by decide)
  · rename_i hquoted
    have hplain := plain_of_not_quoted hcomma hnewline h hquoted
    cases field with
    | nil => exact ⟨.startField, Or.inl rfl, .refl _⟩
    | cons c field =>
      obtain ⟨hend, hcomma', hquote⟩ := hplain c List.mem_cons_self
      have hlength := h.length
      rw [List.length_cons] at hlength
      refine ⟨.inField, Or.inr (Or.inl rfl),
        .cons (char_startField hend hcomma' hquote (by omega))
          (fun hline => absurd hline (by rw [hend]; decide)) ?_⟩
      refine consumes_plainBody (by rw [List.length_singleton]; omega) fun c' hc' => ?_
      obtain ⟨hend', hcomma'', -⟩ := hplain c' (List.mem_cons_of_mem c hc')
      exact ⟨hend', hcomma''⟩

/-! ### Records -/

/-- The fields that remain, and the line feed. -/
theorem readLines_fields {rest : List Text} (hne : rest ≠ [])
    (hrest : ∀ field ∈ rest, Readable special limit field) :
    readLines limit ⟨.startField, fields, []⟩
        (rawLines ([','].intercalate (rest.map (writeField special)) ++ '\n' :: u)) =
      (do pure ((fields ++ rest) :: (← readLines limit .fresh (rawLines u)))) := by
  induction rest generalizing fields with
  | nil => exact absurd rfl hne
  | cons field rest ih =>
    obtain ⟨mode, hmode, hfield⟩ :=
      @consumes_field limit fields field special hcomma hnewline (hrest field List.mem_cons_self)
    by_cases hlast : rest = []
    · subst hlast
      rw [List.map_cons, List.map_nil, List.intercalate_singleton,
        hfield _ (List.cons_ne_nil _ _), readLines_newline hmode]
    · have hsep : Reading.char limit ⟨mode, fields, field⟩ ',' =
          .ok ⟨.startField, fields ++ [field], []⟩ := by
        rcases hmode with rfl | rfl | rfl <;> rfl
      have hstep := hfield.trans (.single hsep fun hend => absurd hend (by decide))
      have hmap : rest.map (writeField special) ≠ [] := by simpa using hlast
      rw [List.map_cons, List.intercalate_cons_of_ne_nil hmap, List.append_assoc,
        hstep _ (List.append_ne_nil_of_right_ne_nil _ (List.cons_ne_nil _ _)),
        ih hlast fun f hf => hrest f (List.mem_cons_of_mem field hf), List.append_assoc,
        List.singleton_append]

/-- A record does not start with a line end, unless it is empty or one empty field. -/
theorem exists_first {rest : List Text} (hne : rest ≠ []) (hempty : rest ≠ [[]])
    (hrest : ∀ field ∈ rest, Readable special limit field) (u : Text) :
    ∃ c t, [','].intercalate (rest.map (writeField special)) ++ '\n' :: u = c :: t ∧
      isLineEnd c = false := by
  cases rest with
  | nil => exact absurd rfl hne
  | cons field rest =>
    have hfirst : writeField special field ≠ [] → ∃ c t, writeField special field = c :: t ∧
        isLineEnd c = false := by
      intro hwritten
      unfold writeField at hwritten ⊢
      split
      · exact ⟨'"', _, rfl, by decide⟩
      · rename_i hquoted
        rw [if_neg hquoted] at hwritten
        cases field with
        | nil => exact absurd rfl hwritten
        | cons c field =>
          exact ⟨c, field, rfl, (plain_of_not_quoted hcomma hnewline
            (hrest _ List.mem_cons_self) hquoted c List.mem_cons_self).1⟩
    by_cases hlast : rest = []
    · subst hlast
      have hfield : field ≠ [] := fun h => hempty (congrArg (fun f => [f]) h)
      have hwritten : writeField special field ≠ [] := by
        unfold writeField
        split
        · exact List.cons_ne_nil _ _
        · exact hfield
      obtain ⟨c, t, ht, hend⟩ := hfirst hwritten
      refine ⟨c, t ++ '\n' :: u, ?_, hend⟩
      rw [List.map_cons, List.map_nil, List.intercalate_singleton, ht, List.cons_append]
    · have hmap : rest.map (writeField special) ≠ [] := by simpa using hlast
      rw [List.map_cons, List.intercalate_cons_of_ne_nil hmap]
      by_cases hwritten : writeField special field = []
      · rw [hwritten]
        exact ⟨',', _, rfl, by decide⟩
      · obtain ⟨c, t, ht, hend⟩ := hfirst hwritten
        rw [ht]
        exact ⟨c, _, rfl, hend⟩

/-- **A record is read as it was.** -/
theorem readLines_writeRecord {record : List Text}
    (hrecord : ∀ field ∈ record, Readable special limit field) :
    readLines limit .fresh (rawLines (writeRecord special record ++ u)) =
      (do pure (record :: (← readLines limit .fresh (rawLines u)))) := by
  unfold writeRecord
  split
  · rename_i hempty
    subst hempty
    have hquotes : Consumes limit ⟨.startField, [], []⟩ ['"', '"'] ⟨.quoteInQuoted, [], []⟩ :=
      have hsecond : Consumes limit ⟨.inQuoted, [], []⟩ ['"'] ⟨.quoteInQuoted, [], []⟩ :=
        .single rfl fun hend => absurd hend (by decide)
      .cons rfl (fun _ => rfl) hsecond
    refine (readLines_startRecord (by decide)).trans
      ((hquotes ('\n' :: u) (List.cons_ne_nil _ _)).trans ?_)
    exact readLines_newline (Or.inr (Or.inr rfl))
  · rename_i hempty
    rw [List.append_assoc, List.singleton_append]
    by_cases hne : record = []
    · subst hne
      show readLines limit .fresh (rawLines ('\n' :: u)) = _
      rw [rawLines, if_pos (Or.inl rfl)]
      rfl
    · obtain ⟨c, t, ht, hend⟩ := exists_first hcomma hnewline hne hempty hrecord u
      rw [ht, readLines_startRecord hend, ← ht,
        readLines_fields hcomma hnewline hne hrecord]
      rfl

/-- **The round trip.** -/
theorem read_write {records : List (List Text)}
    (hrecords : ∀ record ∈ records, ∀ field ∈ record, Readable special limit field) :
    read limit (write special records) = .ok records := by
  unfold read write
  induction records with
  | nil => rfl
  | cons record records ih =>
    rw [List.flatMap_cons, readLines_writeRecord hcomma hnewline
      (hrecords record List.mem_cons_self),
      ih fun r hr => hrecords r (List.mem_cons_of_mem record hr)]
    rfl

end Fields

/-! ### One text, one table -/

/-- **Two tables with one text are one table**, whatever the limit of a reader. -/
theorem write_injective {special : Char → Bool} (hcomma : special ',' = true)
    (hnewline : special '\n' = true) {records records' : List (List Text)}
    (h : ∀ record ∈ records, ∀ field ∈ record, '\r' ∈ field → special '\r' = true)
    (h' : ∀ record ∈ records', ∀ field ∈ record, '\r' ∈ field → special '\r' = true)
    (heq : write special records = write special records') : records = records' := by
  -- a limit that no field of either table reaches
  obtain ⟨limit, hlimit⟩ : ∃ limit, ∀ field ∈ (records ++ records').flatten,
      field.length ≤ limit := by
    refine ⟨((records ++ records').flatten.map List.length).sum, fun field hfield => ?_⟩
    exact List.single_le_sum (fun _ _ => Nat.zero_le _) _ (List.mem_map_of_mem hfield)
  have hleft : read limit (write special records) = .ok records :=
    read_write hcomma hnewline fun record hrecord field hfield =>
      ⟨hlimit field (List.mem_flatten.mpr ⟨record, List.mem_append_left _ hrecord, hfield⟩),
        h record hrecord field hfield⟩
  have hright : read limit (write special records') = .ok records' :=
    read_write hcomma hnewline fun record hrecord field hfield =>
      ⟨hlimit field (List.mem_flatten.mpr ⟨record, List.mem_append_right _ hrecord, hfield⟩),
        h' record hrecord field hfield⟩
  rw [heq, hright] at hleft
  exact (Except.ok.inj hleft).symm

end RoundTrip

end Csv
end FederatedMessaging
