import Mathlib.Data.List.Basic
import Mathlib.Tactic.Basic

/-!
# Comma-separated values

The writer and the reader of Python's `csv` module for a dialect that doubles its quotes
and quotes only where it must. A record is written with `\r\n` behind it. The reader
takes the lines of a text file one after the other, each with the `\n` it ends in.
-/

namespace Csv

structure Dialect where
  delimiter : Char
  quotechar : Char
  distinct : delimiter ≠ quotechar
  delimiterOk : delimiter ≠ '\n' ∧ delimiter ≠ '\r'
  quotecharOk : quotechar ≠ '\n' ∧ quotechar ≠ '\r'

namespace Dialect

theorem comma_ne_quote : ',' ≠ '"' := by decide
theorem comma_ok : ',' ≠ '\n' ∧ ',' ≠ '\r' := by decide
theorem quote_ok : '"' ≠ '\n' ∧ '"' ≠ '\r' := by decide

def excel : Dialect := ⟨',', '"', comma_ne_quote, comma_ok, quote_ok⟩

end Dialect

variable (d : Dialect)

/-! ### The writer -/

/- `\n` and `\r` make up the line terminator. -/
def special (c : Char) : Bool :=
  c = d.delimiter || c = d.quotechar || c = '\n' || c = '\r'

def double (field : List Char) : List Char :=
  field.flatMap fun c => if c = d.quotechar then [c, c] else [c]

def quoted (field : List Char) : List Char :=
  d.quotechar :: (double d field ++ [d.quotechar])

def writeField (field : List Char) : List Char :=
  if field.any (special d) then quoted d field else field

def writeFields (fields : List (List Char)) : List Char :=
  [d.delimiter].intercalate (fields.map (writeField d))

/- One empty field would look like none at all. -/
def writeRecord (fields : List (List Char)) : List Char :=
  (if fields = [[]] then quoted d [] else writeFields d fields) ++ ['\r', '\n']

/-- `writer.writerow`. -/
def writerow (fields : List String) : String :=
  String.ofList (writeRecord d (fields.map String.toList))

/-! ### The reader -/

inductive State where
  | startRecord
  | startField
  | inField
  | inQuotedField
  | quoteInQuotedField
  | eatCrnl
  deriving DecidableEq, Repr

inductive Error where
  | fieldLimit
  | newlineInUnquoted
  deriving DecidableEq, Repr

inductive Symbol where
  | char (c : Char)
  | eol
  deriving DecidableEq, Repr

/- `records` are finished, `fields` are those of the current one. -/
structure Reader where
  state : State := .startRecord
  field : List Char := []
  fields : List (List Char) := []
  records : List (List (List Char)) := []
  deriving DecidableEq, Repr

namespace Reader

variable (limit : ℕ)

/-- `parse_add_char`. -/
def addChar (r : Reader) (c : Char) (state : State) : Except Error Reader :=
  if limit ≤ r.field.length then .error .fieldLimit
  else .ok { r with field := r.field ++ [c], state }

/-- `parse_save_field`. -/
def saveField (r : Reader) (state : State) : Reader :=
  { r with field := [], fields := r.fields ++ [r.field], state }

def endRecord (r : Reader) : Reader :=
  { r with state := .startRecord, fields := [], records := r.records ++ [r.fields] }

def nextInField (r : Reader) (c : Char) : Except Error Reader :=
  if c = '\n' ∨ c = '\r' then .ok (r.saveField .eatCrnl)
  else if c = d.quotechar then .ok { r with state := .inQuotedField }
  else if c = d.delimiter then .ok (r.saveField .startField)
  else r.addChar limit c .inField

/-- `parse_process_char`, on a character. -/
def nextChar (r : Reader) (c : Char) : Except Error Reader :=
  match r.state with
  | .startRecord =>
    if c = '\n' ∨ c = '\r' then .ok { r with state := .eatCrnl } else r.nextInField d limit c
  | .startField => r.nextInField d limit c
  | .inField =>
    if c = '\n' ∨ c = '\r' then .ok (r.saveField .eatCrnl)
    else if c = d.delimiter then .ok (r.saveField .startField)
    else r.addChar limit c .inField
  | .inQuotedField =>
    if c = d.quotechar then .ok { r with state := .quoteInQuotedField }
    else r.addChar limit c .inQuotedField
  | .quoteInQuotedField =>
    if c = d.quotechar then r.addChar limit c .inQuotedField
    else if c = d.delimiter then .ok (r.saveField .startField)
    else if c = '\n' ∨ c = '\r' then .ok (r.saveField .eatCrnl)
    else r.addChar limit c .inField
  | .eatCrnl => if c = '\n' ∨ c = '\r' then .ok r else .error .newlineInUnquoted

/-- `parse_process_char`, on the end of a line; a record that is complete is returned. -/
def nextLine (r : Reader) : Reader :=
  match r.state with
  | .startField | .inField | .quoteInQuotedField => (r.saveField .startRecord).endRecord
  | .inQuotedField => r
  | .startRecord | .eatCrnl => r.endRecord

def next (r : Reader) : Symbol → Except Error Reader
  | .char c => r.nextChar d limit c
  | .eol => .ok r.nextLine

def feed : Reader → List Symbol → Except Error Reader
  | r, [] => .ok r
  | r, x :: xs => (r.next d limit x).bind fun r => r.feed xs

/- The end of the input. -/
def finish (r : Reader) : List (List (List Char)) :=
  if r.field ≠ [] ∨ r.state = .inQuotedField then (r.saveField .startRecord).endRecord.records
  else r.records

end Reader

def symbol (c : Char) : List Symbol := if c = '\n' then [.char c, .eol] else [.char c]

/- The last line may lack its `\n`. -/
def symbols (text : List Char) : List Symbol :=
  text.flatMap symbol ++ if text.getLast?.all (· = '\n') then [] else [.eol]

def read (limit : ℕ) (text : List Char) : Except Error (List (List (List Char))) :=
  (({} : Reader).feed d limit (symbols text)).map Reader.finish

/-- `list(csv.reader(file))`. -/
def reader (limit : ℕ) (text : String) : Except Error (List (List String)) :=
  (read d limit text.toList).map fun records => records.map fun fields => fields.map String.ofList

/-! ### Reading back what was written -/

section
variable {d} {limit : ℕ}

/- No field is longer than the reader allows. -/
def short (limit : ℕ) (fields : List (List Char)) : Bool :=
  fields.all fun f => f.length ≤ limit

theorem short_cons (f : List Char) (fields : List (List Char)) :
    short limit (f :: fields) = (decide (f.length ≤ limit) && short limit fields) := rfl

namespace Reader

theorem feed_append (xs ys : List Symbol) (r : Reader) :
    r.feed d limit (xs ++ ys) = (r.feed d limit xs).bind fun r => r.feed d limit ys := by
  induction xs generalizing r with
  | nil => rfl
  | cons x xs ih =>
    simp only [List.cons_append, feed]
    cases r.next d limit x with
    | error e => rfl
    | ok r => exact ih r

/- Add characters up to the limit. -/
def addChars (limit : ℕ) (state : State) : Reader → List Char → Except Error Reader
  | r, [] => .ok r
  | r, c :: cs => (r.addChar limit c state).bind fun r => r.addChars limit state cs

theorem addChars_fits {state : State} {cs : List Char} {r : Reader}
    (h : r.field.length + cs.length ≤ limit) : r.addChars limit state cs =
      .ok { r with field := r.field ++ cs, state := if cs = [] then r.state else state } := by
  induction cs generalizing r with
  | nil => simp [addChars]
  | cons c cs ih =>
    simp only [List.length_cons] at h
    have hroom : ¬ limit ≤ r.field.length := by omega
    have hrest : (r.field ++ [c]).length + cs.length ≤ limit := by
      rw [List.length_append, List.length_singleton]
      omega
    simp only [addChars, addChar, if_neg hroom, Except.bind]
    rw [ih hrest]
    simp

theorem addChars_overflows {state : State} {cs : List Char} {r : Reader}
    (hroom : r.field.length ≤ limit) (h : limit < r.field.length + cs.length) :
    r.addChars limit state cs = .error .fieldLimit := by
  induction cs generalizing r with
  | nil =>
    simp only [List.length_nil] at h
    omega
  | cons c cs ih =>
    simp only [List.length_cons] at h
    by_cases hfull : limit ≤ r.field.length
    · simp [addChars, addChar, hfull, Except.bind]
    · simp only [addChars, addChar, if_neg hfull, Except.bind]
      apply ih
      · rw [List.length_append, List.length_singleton]
        omega
      · rw [List.length_append, List.length_singleton]
        omega

theorem addChars_eq {state : State} {cs : List Char} {r : Reader} (hr : r.field = []) :
    r.addChars limit state cs = if cs.length ≤ limit then
      .ok { r with field := cs, state := if cs = [] then r.state else state }
    else .error .fieldLimit := by
  by_cases hfits : cs.length ≤ limit
  · rw [if_pos hfits, addChars_fits (by simpa [hr] using hfits), hr, List.nil_append]
  · rw [if_neg hfits]
    exact addChars_overflows (by simp [hr]) (by rw [hr, List.length_nil]; omega)

/- Characters that need no quotes, behind the first one. -/
theorem feed_plain {cs : List Char} (h : cs.any (special d) = false) {r : Reader}
    (hs : r.state = .inField) :
    r.feed d limit (cs.flatMap symbol) = r.addChars limit .inField cs := by
  induction cs generalizing r with
  | nil => rfl
  | cons c cs ih =>
    rw [List.any_cons, Bool.or_eq_false_iff] at h
    obtain ⟨hc, hcs⟩ := h
    simp only [special, Bool.or_eq_false_iff, decide_eq_false_iff_not] at hc
    obtain ⟨⟨⟨hdelim, hquote⟩, hn⟩, hr⟩ := hc
    rw [List.flatMap_cons, symbol, if_neg hn]
    simp only [List.cons_append, List.nil_append, feed, next, nextChar, hs, hn, hr, hdelim,
      or_self, if_false, addChars]
    unfold addChar
    split
    · rfl
    · exact ih hcs rfl

/- A doubled quote is one quote, and lines end without effect. -/
theorem feed_doubled {c : Char} {r : Reader} (hs : r.state = .inQuotedField) :
    r.feed d limit ((if c = d.quotechar then [c, c] else [c]).flatMap symbol) =
      r.addChar limit c .inQuotedField := by
  by_cases hquote : c = d.quotechar
  · have hn : c ≠ '\n' := hquote ▸ d.quotecharOk.1
    simp only [if_pos hquote, List.flatMap_cons, List.flatMap_nil, symbol, if_neg hn,
      List.append_nil, List.cons_append, List.nil_append, feed, next, nextChar, hs, Except.bind]
    unfold addChar
    dsimp only
    by_cases hfull : limit ≤ r.field.length
    · simp only [if_pos hfull]
    · simp only [if_neg hfull]
  · rw [if_neg hquote, List.flatMap_singleton, symbol]
    split
    · simp only [feed, next, nextChar, hs, if_neg hquote]
      unfold addChar
      split
      · rfl
      · rfl
    · simp only [feed, next, nextChar, hs, if_neg hquote]
      cases r.addChar limit c .inQuotedField with
      | error e => rfl
      | ok r => rfl

theorem feed_double {cs : List Char} {r : Reader} (hs : r.state = .inQuotedField) :
    r.feed d limit ((double d cs).flatMap symbol) = r.addChars limit .inQuotedField cs := by
  induction cs generalizing r with
  | nil => rfl
  | cons c cs ih =>
    rw [double, List.flatMap_cons, List.flatMap_append, feed_append, feed_doubled hs, addChars]
    unfold addChar
    split
    · rfl
    · exact ih rfl

/- At the start of a record or of a field behind the first. -/
structure AtField (r : Reader) : Prop where
  state : r.state = .startRecord ∨ r.state = .startField
  field : r.field = []

/- Where a field leaves the reader. -/
def after (r : Reader) (field : List Char) : State :=
  if field.any (special d) then .quoteInQuotedField
  else if field = [] then r.state else .inField

theorem feed_quoted {field : List Char} {r : Reader} (h : AtField r) :
    r.feed d limit ((quoted d field).flatMap symbol) =
      if field.length ≤ limit then .ok { r with field, state := .quoteInQuotedField }
      else .error .fieldLimit := by
  obtain ⟨hn, hr⟩ := d.quotecharOk
  have hopen : r.feed d limit (symbol d.quotechar) = .ok { r with state := .inQuotedField } := by
    rcases h.state with hs | hs
    · simp [symbol, hn, hr, feed, next, nextChar, hs, nextInField, Except.bind]
    · simp [symbol, hn, hr, feed, next, nextChar, hs, nextInField, Except.bind]
  rw [quoted, List.flatMap_cons, List.flatMap_append, feed_append, hopen]
  simp only [Except.bind]
  have hfield : ({ r with state := .inQuotedField } : Reader).field = [] := h.field
  rw [feed_append, feed_double rfl, addChars_eq hfield]
  split
  · simp [symbol, hn, feed, next, nextChar, Except.bind]
  · rfl

theorem feed_writeField {field : List Char} {r : Reader} (h : AtField r) :
    r.feed d limit ((writeField d field).flatMap symbol) =
      if field.length ≤ limit then .ok { r with field, state := after (d := d) r field }
      else .error .fieldLimit := by
  unfold writeField after
  cases hspecial : field.any (special d) with
  | true => exact feed_quoted h
  | false =>
    cases field with
    | nil =>
      obtain ⟨state, field, fields, records⟩ := r
      obtain rfl := h.field
      simp [feed]
    | cons c cs =>
      have hall := hspecial
      rw [List.any_cons, Bool.or_eq_false_iff] at hall
      obtain ⟨hc, hcs⟩ := hall
      simp only [special, Bool.or_eq_false_iff, decide_eq_false_iff_not] at hc
      obtain ⟨⟨⟨hdelim, hquote⟩, hn⟩, hr⟩ := hc
      have hfirst : r.feed d limit (symbol c) = r.addChar limit c .inField := by
        have hnext : r.nextChar d limit c = r.addChar limit c .inField := by
          rcases h.state with hs | hs
          · simp [nextChar, nextInField, hs, hn, hr, hquote, hdelim]
          · simp [nextChar, nextInField, hs, hn, hr, hquote, hdelim]
        rw [symbol, if_neg hn]
        simp only [feed, next, hnext]
        cases r.addChar limit c .inField with
        | error e => rfl
        | ok r => rfl
      have hall : r.feed d limit ((c :: cs).flatMap symbol) =
          r.addChars limit .inField (c :: cs) := by
        rw [List.flatMap_cons, feed_append, hfirst, addChars]
        unfold addChar
        split
        · rfl
        · exact feed_plain hcs rfl
      simp only [if_false, Bool.false_eq_true]
      rw [hall, addChars_eq h.field]

/- What ends a field. -/
def Ended (r : Reader) : Prop :=
  r.state = .startField ∨ r.state = .inField ∨ r.state = .quoteInQuotedField

theorem feed_delimiter {r : Reader} (h : r.state = .startRecord ∨ r.Ended) :
    r.feed d limit (symbol d.delimiter) = .ok (r.saveField .startField) := by
  obtain ⟨hn, hr⟩ := d.delimiterOk
  have hquote := d.distinct
  rw [symbol, if_neg hn]
  rcases h with hs | hs | hs | hs
  · simp [feed, next, nextChar, nextInField, hs, hn, hr, hquote, Except.bind]
  · simp [feed, next, nextChar, nextInField, hs, hn, hr, hquote, Except.bind]
  · simp [feed, next, nextChar, hs, hn, hr, Except.bind]
  · simp [feed, next, nextChar, hs, hquote, Except.bind]

theorem feed_crlf {r : Reader} (h : r.Ended) :
    r.feed d limit (['\r', '\n'].flatMap symbol) = .ok (r.saveField .startRecord).endRecord := by
  have hquote := d.quotecharOk.2.symm
  have hdelim := d.delimiterOk.2.symm
  have hsymbols : ['\r', '\n'].flatMap symbol = [.char '\r', .char '\n', .eol] := by decide
  rw [hsymbols]
  rcases h with hs | hs | hs
  · simp [feed, next, nextChar, nextInField, nextLine, hs, Except.bind, saveField, endRecord]
  · simp [feed, next, nextChar, nextLine, hs, Except.bind, saveField, endRecord]
  · simp [feed, next, nextChar, nextLine, hs, hquote, hdelim, Except.bind, saveField, endRecord]

theorem after_ended (field : List Char) {r : Reader} (h : AtField r) :
    after (d := d) r field = .startRecord ∧ r.state = .startRecord ∧ field = [] ∨
      Ended { r with field, state := after (d := d) r field } := by
  unfold after Ended
  dsimp only
  split
  · exact Or.inr (Or.inr (Or.inr rfl))
  · split
    · next hnil =>
      rcases h.state with hs | hs
      · exact Or.inl ⟨hs, hs, hnil⟩
      · exact Or.inr (Or.inl hs)
    · exact Or.inr (Or.inr (Or.inl rfl))

/- A record from its first field or from a later one. -/
theorem feed_writeFields {fields : List (List Char)} (hne : fields ≠ []) {r : Reader}
    (h : AtField r) (hone : r.state = .startRecord → fields ≠ [[]]) :
    r.feed d limit ((writeFields d fields ++ ['\r', '\n']).flatMap symbol) =
      if short limit fields then
        .ok ⟨.startRecord, [], [], r.records ++ [r.fields ++ fields]⟩
      else .error .fieldLimit := by
  induction fields generalizing r with
  | nil => exact absurd rfl hne
  | cons f fields ih =>
    cases fields with
    | nil =>
      have hlast : writeFields d [f] = writeField d f := by simp [writeFields]
      rw [hlast, List.flatMap_append, feed_append, feed_writeField h]
      by_cases hfits : f.length ≤ limit
      · have hended : Ended { r with field := f, state := after (d := d) r f } := by
          rcases after_ended f h with ⟨-, hs, rfl⟩ | hended
          · exact absurd rfl (hone hs)
          · exact hended
        simp only [if_pos hfits, Except.bind]
        rw [feed_crlf hended]
        simp [short, hfits, saveField, endRecord]
      · simp [short_cons, hfits, Except.bind]
    | cons g rest =>
      have hcons : writeFields d (f :: g :: rest) =
          writeField d f ++ d.delimiter :: writeFields d (g :: rest) := by
        simp [writeFields, List.intercalate_cons_cons]
      rw [hcons, List.append_assoc, List.flatMap_append, feed_append, feed_writeField h]
      by_cases hfits : f.length ≤ limit
      · have hended : (Reader.mk (after (d := d) r f) f r.fields r.records).state = .startRecord ∨
            Ended { r with field := f, state := after (d := d) r f } := by
          rcases after_ended f h with ⟨hs, -⟩ | hended
          · exact Or.inl hs
          · exact Or.inr hended
        simp only [if_pos hfits, Except.bind]
        rw [List.cons_append, List.flatMap_cons, feed_append, feed_delimiter hended]
        simp only [Except.bind]
        have hat : AtField
            (saveField { r with field := f, state := after (d := d) r f } .startField) :=
          ⟨Or.inr rfl, rfl⟩
        rw [ih (List.cons_ne_nil g rest) hat fun hs => by cases hs]
        simp [short_cons, hfits, saveField]
      · simp [short_cons, hfits, Except.bind]

/- Between two records. -/
structure Idle (r : Reader) : Prop where
  state : r.state = .startRecord
  field : r.field = []
  fields : r.fields = []

theorem feed_writeRecord (fields : List (List Char)) {r : Reader} (h : Idle r) :
    r.feed d limit ((writeRecord d fields).flatMap symbol) =
      if short limit fields then .ok { r with records := r.records ++ [fields] }
      else .error .fieldLimit := by
  obtain ⟨state, field, before, records⟩ := r
  obtain ⟨rfl, rfl, rfl⟩ := h
  have hat : AtField ⟨.startRecord, [], [], records⟩ := ⟨Or.inl rfl, rfl⟩
  unfold writeRecord
  by_cases hone : fields = [[]]
  · rw [if_pos hone, List.flatMap_append, feed_append, feed_quoted hat]
    simp only [List.length_nil, Nat.zero_le, if_true, Except.bind]
    rw [feed_crlf (Or.inr (Or.inr rfl))]
    simp [hone, short, saveField, endRecord]
  · rw [if_neg hone]
    cases fields with
    | nil =>
      have hsymbols : ['\r', '\n'].flatMap symbol = [.char '\r', .char '\n', .eol] := by decide
      rw [writeFields, List.map_nil, List.intercalate_nil, List.nil_append, hsymbols]
      simp [feed, next, nextChar, nextLine, Except.bind, endRecord, short]
    | cons f rest =>
      rw [feed_writeFields (List.cons_ne_nil f rest) hat fun _ => hone]
      simp

theorem feed_writeRecords (records : List (List (List Char))) {r : Reader} (h : Idle r) :
    r.feed d limit ((records.flatMap (writeRecord d)).flatMap symbol) =
      if records.all (short limit) then
        .ok { r with records := r.records ++ records }
      else .error .fieldLimit := by
  induction records generalizing r with
  | nil => simp [feed]
  | cons fields records ih =>
    rw [List.flatMap_cons, List.flatMap_append, feed_append, feed_writeRecord fields h]
    by_cases hfits : short limit fields = true
    · have hidle : Idle { r with records := r.records ++ [fields] } :=
        ⟨h.state, h.field, h.fields⟩
      simp only [if_pos hfits, Except.bind]
      rw [ih hidle]
      simp [hfits]
    · simp [hfits, Except.bind]

end Reader

/- The text of the records is read as the records, whatever they hold, unless a field is
longer than the reader allows. -/
theorem read_writeRecords (records : List (List (List Char))) :
    read d limit (records.flatMap (writeRecord d)) =
      if records.all (short limit) then .ok records
      else .error .fieldLimit := by
  have hlast : (records.flatMap (writeRecord d)).getLast?.all (· = '\n') = true := by
    cases hrev : records.reverse with
    | nil => simp [List.reverse_eq_nil_iff.mp hrev]
    | cons fields rest =>
      have hsplit : records = rest.reverse ++ [fields] := by
        rw [← List.reverse_reverse records, hrev, List.reverse_cons]
      simp [hsplit, writeRecord, List.getLast?_append]
  rw [read, symbols, if_pos hlast, List.append_nil,
    Reader.feed_writeRecords records ⟨rfl, rfl, rfl⟩]
  split
  · simp [Except.map, Reader.finish]
  · rfl

theorem toList_join_writerow (records : List (List String)) :
    (String.join (records.map (writerow d))).toList =
      (records.map fun fields => fields.map String.toList).flatMap (writeRecord d) := by
  induction records with
  | nil => rfl
  | cons fields records ih =>
    rw [List.map_cons, String.join_cons, String.toList_append, ih, writerow, String.toList_ofList,
      List.map_cons, List.flatMap_cons]

/-- What `csv.reader` makes of the rows one `writerow` after the other has written. -/
theorem reader_writerow (records : List (List String)) :
    reader d limit (String.join (records.map (writerow d))) =
      if records.all fun fields => fields.all fun f => f.length ≤ limit then .ok records
      else .error .fieldLimit := by
  have hshort : ((records.map fun fields => fields.map String.toList).all (short limit)) =
      records.all fun fields => fields.all fun f => f.length ≤ limit := by
    simp only [short, List.all_map, Function.comp_def, String.length_toList]
  rw [reader, toList_join_writerow, read_writeRecords, hshort]
  split
  · simp [Except.map, List.map_map, Function.comp_def]
  · rfl

end

example : reader .excel 131072 (writerow .excel ["a,b", "say \"x\"\r\n", ""] ++
    writerow .excel [""] ++ writerow .excel []) =
    .ok [["a,b", "say \"x\"\r\n", ""], [""], []] := by decide

end Csv
