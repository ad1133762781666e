import PulseWatch.Lib.PyText

/-!
# Texts and tags of an HTML fragment

A fragment read from the left: text up to a `<`, a tag up to the `>`, text again. Every
`<` counts as the start of a tag, also where a browser would let it pass for text. What a
character reference stands for is left to the reader of the fragment.
-/

namespace Html
open PyText

/- The text in front of the first tag, and each tag with the text behind it. -/
structure Doc where
  head : String
  rest : List (String × String)
  deriving DecidableEq, Repr

namespace Doc

def tags (d : Doc) : List String := d.rest.map Prod.fst

def texts (d : Doc) : List String := d.head :: d.rest.map Prod.snd

def map (f : String → String) (d : Doc) : Doc := ⟨f d.head, d.rest.map fun p => (p.1, f p.2)⟩

def renderRest (rest : List (String × String)) : String :=
  String.join (rest.map fun p => "<" ++ p.1 ++ ">" ++ p.2)

def render (d : Doc) : String := d.head ++ renderRest d.rest

end Doc

/- A tag, without its brackets, and the text behind it. -/
def cut (piece : List Char) : String × String :=
  (String.ofList (piece.takeWhile (· ≠ '>')),
    String.ofList ((piece.dropWhile (· ≠ '>')).drop 1))

def parse (html : String) : Doc :=
  match html.toList.splitOn '<' with
  | [] => ⟨"", []⟩
  | head :: pieces => ⟨String.ofList head, pieces.map cut⟩

example : parse "a <b>c</b><br>\n" = ⟨"a ", [("b", "c"), ("/b", ""), ("br", "\n")]⟩ := by decide

/-! ### Reading what was written -/

/- Texts without a `<`, tags without a bracket. -/
structure Doc.Plain (d : Doc) : Prop where
  texts : ∀ x ∈ d.texts, '<' ∉ x.toList
  tags : ∀ t ∈ d.tags, '<' ∉ t.toList ∧ '>' ∉ t.toList

theorem cut_piece {t x : String} (ht : '>' ∉ t.toList) :
    cut (t.toList ++ '>' :: x.toList) = (t, x) := by
  have hkeep : ∀ c ∈ t.toList, decide (c ≠ '>') = true := by
    intro c hc
    rw [decide_eq_true_eq]
    rintro rfl
    exact ht hc
  rw [cut, List.takeWhile_append_of_pos hkeep, List.dropWhile_append_of_pos hkeep]
  simp

theorem toList_renderRest (rest : List (String × String)) : (Doc.renderRest rest).toList =
    rest.flatMap fun p => '<' :: (p.1.toList ++ '>' :: p.2.toList) := by
  induction rest with
  | nil => rfl
  | cons p rest ih =>
    rw [Doc.renderRest, List.map_cons, String.join_cons, String.toList_append, List.flatMap_cons,
      ← ih]
    simp [Doc.renderRest]

theorem toList_render (d : Doc) : d.render.toList = ['<'].intercalate
    (d.head.toList :: d.rest.map fun p => p.1.toList ++ '>' :: p.2.toList) := by
  rw [Doc.render, String.toList_append, toList_renderRest]
  generalize d.head.toList = head
  induction d.rest generalizing head with
  | nil => simp
  | cons p rest ih =>
    rw [List.map_cons, List.intercalate_cons_cons, ← ih]
    simp

theorem parse_render {d : Doc} (h : d.Plain) : parse d.render = d := by
  have hpieces : ∀ l ∈ d.head.toList :: d.rest.map fun p => p.1.toList ++ '>' :: p.2.toList,
      '<' ∉ l := by
    intro l hl
    rcases List.mem_cons.mp hl with rfl | hl
    · exact h.texts _ List.mem_cons_self
    · obtain ⟨p, hp, rfl⟩ := List.mem_map.mp hl
      have htag := (h.tags p.1 (List.mem_map_of_mem hp)).1
      have htext := h.texts p.2 (List.mem_cons_of_mem _ (List.mem_map_of_mem hp))
      simp [htag, htext]
  rw [parse, toList_render, List.splitOn_intercalate _ hpieces (List.cons_ne_nil _ _)]
  dsimp only
  have hrest : d.rest.map (fun p => cut (p.1.toList ++ '>' :: p.2.toList)) = d.rest := by
    conv_rhs => rw [← List.map_id d.rest]
    refine List.map_congr_left fun p hp => ?_
    exact cut_piece (h.tags p.1 (List.mem_map_of_mem hp)).2
  rw [List.map_map, String.ofList_toList]
  exact congrArg (Doc.mk d.head) hrest

/-! ### Character references -/

def isNameChar (c : Char) : Bool :=
  c ≠ '\t' && c ≠ '\n' && c ≠ '\x0C' && c ≠ ' ' && c ≠ '<' && c ≠ '&' && c ≠ '#' && c ≠ ';'

def isHex (c : Char) : Bool :=
  c.isDigit || ('a' ≤ c && c ≤ 'f') || ('A' ≤ c && c ≤ 'F')

/- A run with the semicolon behind it, if there is one. -/
def run (accepts : Char → Bool) (limit : ℕ) (cs : List Char) : Option (List Char) :=
  let name := (cs.takeWhile accepts).take limit
  if name = [] then none
  else some (if (cs.drop name.length).head? = some ';' then name ++ [';'] else name)

/- What a reference has behind its `&`: a decimal or hexadecimal number, or a name of at
most 32 characters. -/
def reference : List Char → Option (List Char)
  | '#' :: 'x' :: cs => (run isHex cs.length cs).map fun r => '#' :: 'x' :: r
  | '#' :: 'X' :: cs => (run isHex cs.length cs).map fun r => '#' :: 'X' :: r
  | '#' :: cs => (run Char.isDigit cs.length cs).map fun r => '#' :: r
  | cs => run isNameChar 32 cs

/- A reader of references knows the five that escaping uses. -/
structure CharRefs where
  expand : List Char → List Char
  amp : expand "amp;".toList = ['&']
  lt : expand "lt;".toList = ['<']
  gt : expand "gt;".toList = ['>']
  quot : expand "quot;".toList = ['"']
  apos : expand "#x27;".toList = ['\'']

namespace CharRefs
variable (refs : CharRefs)

/- With the number of characters to pass over, which belong to the last reference. -/
def unescapeFrom : ℕ → List Char → List Char
  | _, [] => []
  | n + 1, _ :: cs => unescapeFrom n cs
  | 0, c :: cs =>
    match if c = '&' then reference cs else none with
    | some r => refs.expand r ++ unescapeFrom r.length cs
    | none => c :: unescapeFrom 0 cs

/-- `html.unescape(s)`, with its table. -/
def unescape (s : String) : String := String.ofList (refs.unescapeFrom 0 s.toList)

end CharRefs

def escapeChar (c : Char) : List Char :=
  match c.toNat with
  | 38 => "&amp;".toList
  | 60 => "&lt;".toList
  | 62 => "&gt;".toList
  | 34 => "&quot;".toList
  | 39 => "&#x27;".toList
  | _ => [c]

theorem toList_htmlEscape (s : String) : (htmlEscape s).toList = s.toList.flatMap escapeChar := by
  rw [htmlEscape, String.toList_join, List.flatMap_map]
  refine List.flatMap_congr fun c _ => ?_
  unfold escapeChar
  split <;> simp_all

/- What every reader does with an escaped character. -/
inductive Escaped (c : Char) : List Char → Prop where
  | kept (hamp : c ≠ '&') (hlt : c ≠ '<') : Escaped c [c]
  | reference (r : List Char) (hlt : '<' ∉ r) (hline : '\n' ∉ c :: r)
      (hend : ∀ cs, Html.reference (r ++ cs) = some r)
      (hexpand : ∀ refs : CharRefs, refs.expand r = [c]) : Escaped c ('&' :: r)

theorem escapeChar_escaped (c : Char) : Escaped c (escapeChar c) := by
  unfold escapeChar
  split
  · next hc =>
    obtain rfl : c = '&' := Char.toNat_inj.mp hc
    exact .reference "amp;".toList (by decide) (by decide) (fun _ => rfl) CharRefs.amp
  · next hc =>
    obtain rfl : c = '<' := Char.toNat_inj.mp hc
    exact .reference "lt;".toList (by decide) (by decide) (fun _ => rfl) CharRefs.lt
  · next hc =>
    obtain rfl : c = '>' := Char.toNat_inj.mp hc
    exact .reference "gt;".toList (by decide) (by decide) (fun _ => rfl) CharRefs.gt
  · next hc =>
    obtain rfl : c = '"' := Char.toNat_inj.mp hc
    exact .reference "quot;".toList (by decide) (by decide) (fun _ => rfl) CharRefs.quot
  · next hc =>
    obtain rfl : c = '\'' := Char.toNat_inj.mp hc
    exact .reference "#x27;".toList (by decide) (by decide) (fun _ => rfl) CharRefs.apos
  · next hamp hlt _ _ _ =>
    refine .kept ?_ ?_
    · rintro rfl
      exact hamp rfl
    · rintro rfl
      exact hlt rfl

theorem Escaped.lt_notMem {c : Char} {l : List Char} (h : Escaped c l) : '<' ∉ l := by
  cases h with
  | kept hamp hlt => simpa using Ne.symm hlt
  | reference r hlt hline hend hexpand => simpa using hlt

theorem lt_notMem_htmlEscape (s : String) : '<' ∉ (htmlEscape s).toList := by
  rw [toList_htmlEscape, List.mem_flatMap]
  rintro ⟨c, -, hc⟩
  exact (escapeChar_escaped c).lt_notMem hc

namespace CharRefs
variable (refs : CharRefs)

theorem unescapeFrom_append (l cs : List Char) :
    refs.unescapeFrom l.length (l ++ cs) = refs.unescapeFrom 0 cs := by
  induction l with
  | nil => rfl
  | cons c l ih => exact ih

theorem unescapeFrom_escaped {c : Char} {l : List Char} (h : Escaped c l) (cs : List Char) :
    refs.unescapeFrom 0 (l ++ cs) = c :: refs.unescapeFrom 0 cs := by
  cases h with
  | kept hamp hlt =>
    rw [List.singleton_append, unescapeFrom, if_neg hamp]
  | reference r hlt hline hend hexpand =>
    rw [List.cons_append, unescapeFrom, if_pos rfl, hend]
    dsimp only
    rw [unescapeFrom_append, hexpand, List.singleton_append]

/- Reading an escaped text gives the text. -/
theorem unescape_htmlEscape (s : String) : refs.unescape (htmlEscape s) = s := by
  have hlist : ∀ l : List Char, refs.unescapeFrom 0 (l.flatMap escapeChar) = l := by
    intro l
    induction l with
    | nil => rfl
    | cons c l ih =>
      rw [List.flatMap_cons, refs.unescapeFrom_escaped (escapeChar_escaped c), ih]
  rw [unescape, toList_htmlEscape, hlist, String.ofList_toList]

end CharRefs

/- A text without special characters is its own escape. -/
def specials : List Char := ['&', '<', '>', '"', '\'']

def Harmless (s : String) : Prop := ∀ c ∈ s.toList, c ∉ specials

instance (s : String) : Decidable (Harmless s) := List.decidableBAll (· ∉ specials) s.toList

theorem escapeChar_of_notMem {c : Char} (h : c ∉ specials) : escapeChar c = [c] := by
  have hcode : c.toNat ∉ specials.map Char.toNat := by
    intro hc
    obtain ⟨d, hd, hdc⟩ := List.mem_map.mp hc
    obtain rfl := Char.toNat_inj.mp hdc
    exact h hd
  have hcodes : specials.map Char.toNat = [38, 60, 62, 34, 39] := rfl
  simp only [hcodes, List.mem_cons, List.not_mem_nil, or_false, not_or] at hcode
  unfold escapeChar
  split
  case h_6 => rfl
  all_goals omega

theorem toList_harmless {s : String} (h : Harmless s) :
    s.toList.flatMap escapeChar = s.toList := by
  rw [List.flatMap_congr fun c hc => escapeChar_of_notMem (h c hc)]
  simp

/-! ### Line breaks -/

/- A text in lines, with a tag for each break. -/
def breakText (s : String) : String × List (String × String) :=
  match (s.toList.splitOn '\n').map String.ofList with
  | [] => ("", [])
  | line :: lines => (line, lines.map fun l => ("br", l))

/- Every newline of a text becomes a `br` tag. -/
def Doc.breakLines (d : Doc) : Doc where
  head := (breakText d.head).1
  rest := (breakText d.head).2 ++
    d.rest.flatMap fun p => (p.1, (breakText p.2).1) :: (breakText p.2).2

/- What the `br` tags at the front stand for, and the rest. -/
def joinRest : List (String × String) → String × List (String × String)
  | [] => ("", [])
  | (t, x) :: rest =>
    if t = "br" then ("\n" ++ x ++ (joinRest rest).1, (joinRest rest).2)
    else ("", (t, x ++ (joinRest rest).1) :: (joinRest rest).2)

/- Every `br` tag read as a newline. -/
def Doc.joinLines (d : Doc) : Doc := ⟨d.head ++ (joinRest d.rest).1, (joinRest d.rest).2⟩

theorem splitOn_flatMap (x : Char) (sep l : List Char) :
    sep.intercalate (l.splitOn x) = l.flatMap fun c => if c = x then sep else [c] := by
  induction l with
  | nil => simp
  | cons c l ih =>
    rw [List.splitOn_cons_eq_if_modifyHead, List.flatMap_cons, ← ih]
    obtain ⟨piece, pieces, hsplit⟩ := List.exists_cons_of_ne_nil (List.splitOn_ne_nil x l)
    rw [hsplit]
    by_cases hc : c = x
    · rw [if_pos (by simpa using hc), if_pos hc]
      simp
    · rw [if_neg (by simpa using hc), if_neg hc, List.modifyHead_cons]
      cases pieces with
      | nil => simp
      | cons p ps => simp [List.intercalate_cons_cons]

theorem mem_of_mem_splitOn {x : Char} {l piece : List Char} (h : piece ∈ l.splitOn x) :
    ∀ c ∈ piece, c ∈ l := by
  induction l generalizing piece with
  | nil =>
    intro c hc
    rw [List.splitOn_nil, List.mem_singleton] at h
    rwa [h] at hc
  | cons d l ih =>
    obtain ⟨first, others, hsplit⟩ := List.exists_cons_of_ne_nil (List.splitOn_ne_nil x l)
    rw [List.splitOn_cons_eq_if_modifyHead, hsplit] at h
    rw [hsplit] at ih
    intro c hc
    split at h
    · rcases List.mem_cons.mp h with rfl | h
      · exact absurd hc List.not_mem_nil
      · exact List.mem_cons_of_mem d (ih h c hc)
    · rw [List.modifyHead_cons] at h
      rcases List.mem_cons.mp h with rfl | h
      · rcases List.mem_cons.mp hc with rfl | hc
        · exact List.mem_cons_self
        · exact List.mem_cons_of_mem d (ih List.mem_cons_self c hc)
      · exact List.mem_cons_of_mem d (ih (List.mem_cons_of_mem first h) c hc)

theorem length_splitOn (x : Char) (l : List Char) : (l.splitOn x).length = l.count x + 1 := by
  induction l with
  | nil => rfl
  | cons c l ih =>
    rw [List.splitOn_cons_eq_if_modifyHead, List.count_cons]
    split
    · rw [List.length_cons, ih]
    · rw [List.length_modifyHead, ih]

/- The lines of a text. -/
theorem breakText_eq (s : String) : ∃ line lines, s.toList.splitOn '\n' = line :: lines ∧
    breakText s = (String.ofList line, lines.map fun l => ("br", String.ofList l)) := by
  obtain ⟨line, lines, hsplit⟩ := List.exists_cons_of_ne_nil (List.splitOn_ne_nil '\n' s.toList)
  refine ⟨line, lines, hsplit, ?_⟩
  rw [breakText, hsplit, List.map_cons]
  dsimp only
  rw [List.map_map]
  rfl

theorem renderRest_cons (p : String × String) (rest : List (String × String)) :
    Doc.renderRest (p :: rest) = "<" ++ p.1 ++ ">" ++ p.2 ++ Doc.renderRest rest := by
  rw [Doc.renderRest, List.map_cons, String.join_cons, Doc.renderRest]

theorem renderRest_append (xs ys : List (String × String)) :
    Doc.renderRest (xs ++ ys) = Doc.renderRest xs ++ Doc.renderRest ys := by
  rw [← String.toList_inj, String.toList_append, toList_renderRest, toList_renderRest,
    toList_renderRest, List.flatMap_append]

theorem toList_replace (c : Char) (r s : String) :
    (replace c r s).toList = s.toList.flatMap fun d => if d = c then r.toList else [d] := by
  rw [replace, String.toList_join, List.flatMap_map]
  refine List.flatMap_congr fun d _ => ?_
  split <;> simp

theorem replace_append (c : Char) (r s t : String) :
    replace c r (s ++ t) = replace c r s ++ replace c r t := by
  rw [← String.toList_inj, String.toList_append, toList_replace, toList_replace, toList_replace,
    String.toList_append, List.flatMap_append]

theorem replace_of_notMem {c : Char} {s : String} (h : c ∉ s.toList) (r : String) :
    replace c r s = s := by
  rw [← String.toList_inj, toList_replace]
  refine (List.flatMap_congr fun d hd => if_neg ?_).trans (by simp)
  rintro rfl
  exact h hd

theorem render_breakText (s : String) :
    (breakText s).1 ++ Doc.renderRest (breakText s).2 = replace '\n' "<br>" s := by
  obtain ⟨line, lines, hsplit, hbreak⟩ := breakText_eq s
  rw [← String.toList_inj, String.toList_append, toList_replace, toList_renderRest, hbreak,
    ← splitOn_flatMap, hsplit]
  dsimp only
  rw [String.toList_ofList]
  clear hsplit hbreak
  induction lines generalizing line with
  | nil => simp
  | cons l lines ih =>
    rw [List.intercalate_cons_cons, ← ih]
    simp

theorem replace_tag {t : String} (h : '\n' ∉ t.toList) (x : String) :
    replace '\n' "<br>" ("<" ++ t ++ ">" ++ x) = "<" ++ t ++ ">" ++ replace '\n' "<br>" x := by
  have htag : '\n' ∉ ("<" ++ t ++ ">").toList := by
    simp [h]
  rw [replace_append, replace_of_notMem htag]

/- Newlines are replaced in the texts; a tag has none. -/
theorem render_breakLines {d : Doc} (h : ∀ t ∈ d.tags, '\n' ∉ t.toList) :
    d.breakLines.render = replace '\n' "<br>" d.render := by
  obtain ⟨head, rest⟩ := d
  have hrest : ∀ rest : List (String × String), (∀ t ∈ rest.map Prod.fst, '\n' ∉ t.toList) →
      Doc.renderRest (rest.flatMap fun p => (p.1, (breakText p.2).1) :: (breakText p.2).2) =
        replace '\n' "<br>" (Doc.renderRest rest) := by
    intro rest hrest
    induction rest with
    | nil => rfl
    | cons p rest ih =>
      have ht := hrest p.1 List.mem_cons_self
      have ih := ih fun t ht => hrest t (List.mem_cons_of_mem _ ht)
      rw [List.flatMap_cons, List.cons_append, renderRest_cons, renderRest_append, ih,
        renderRest_cons, replace_append, replace_tag ht, ← render_breakText p.2]
      simp only [String.append_assoc]
  rw [Doc.render, Doc.breakLines, Doc.render, replace_append, renderRest_append, hrest rest h,
    ← render_breakText head]
  simp only [String.append_assoc]

theorem Doc.Plain.breakLines {d : Doc} (h : d.Plain) : d.breakLines.Plain := by
  have htext : ∀ x : String, '<' ∉ x.toList → '<' ∉ (breakText x).1.toList ∧
      ∀ p ∈ (breakText x).2, '<' ∉ p.2.toList ∧ p.1 = "br" := by
    intro x hx
    obtain ⟨line, lines, hsplit, hbreak⟩ := breakText_eq x
    have hline : ∀ l ∈ line :: lines, '<' ∉ l := by
      intro l hl hc
      rw [← hsplit] at hl
      exact hx (mem_of_mem_splitOn hl _ hc)
    rw [hbreak]
    refine ⟨?_, ?_⟩
    · rw [String.toList_ofList]
      exact hline line List.mem_cons_self
    · intro p hp
      obtain ⟨l, hl, rfl⟩ := List.mem_map.mp hp
      rw [String.toList_ofList]
      exact ⟨hline l (List.mem_cons_of_mem _ hl), rfl⟩
  have hpair : ∀ p ∈ d.breakLines.rest,
      '<' ∉ p.2.toList ∧ '<' ∉ p.1.toList ∧ '>' ∉ p.1.toList := by
    intro p hp
    rcases List.mem_append.mp hp with hp | hp
    · obtain ⟨hlt, hbr⟩ := (htext d.head (h.texts _ List.mem_cons_self)).2 p hp
      exact ⟨hlt, hbr ▸ by decide, hbr ▸ by decide⟩
    · obtain ⟨q, hq, hp⟩ := List.mem_flatMap.mp hp
      obtain ⟨hfirst, hothers⟩ :=
        htext q.2 (h.texts _ (List.mem_cons_of_mem _ (List.mem_map_of_mem hq)))
      rcases List.mem_cons.mp hp with rfl | hp
      · exact ⟨hfirst, h.tags q.1 (List.mem_map_of_mem hq)⟩
      · obtain ⟨hlt, hbr⟩ := hothers p hp
        exact ⟨hlt, hbr ▸ by decide, hbr ▸ by decide⟩
  refine ⟨?_, ?_⟩
  · intro x hx
    rcases List.mem_cons.mp hx with rfl | hx
    · exact (htext d.head (h.texts _ List.mem_cons_self)).1
    · obtain ⟨p, hp, rfl⟩ := List.mem_map.mp hx
      exact (hpair p hp).1
  · intro t ht
    obtain ⟨p, hp, rfl⟩ := List.mem_map.mp ht
    exact (hpair p hp).2

/- The tags with a `br` for each newline of the texts. -/
def breaks (s : String) : List String := List.replicate (s.toList.count '\n') "br"

def Doc.brokenTags (d : Doc) : List String :=
  breaks d.head ++ d.rest.flatMap fun p => p.1 :: breaks p.2

theorem tags_breakLines (d : Doc) : d.breakLines.tags = d.brokenTags := by
  have htext : ∀ x, (breakText x).2.map Prod.fst = breaks x := by
    intro x
    obtain ⟨line, lines, hsplit, hbreak⟩ := breakText_eq x
    have hlength := length_splitOn '\n' x.toList
    rw [hsplit, List.length_cons, Nat.add_right_cancel_iff] at hlength
    rw [hbreak, breaks, ← hlength, List.map_map]
    exact List.map_const' ..
  rw [Doc.tags, Doc.breakLines, List.map_append, htext, List.map_flatMap, Doc.brokenTags]
  congr 1
  refine List.flatMap_congr fun p _ => ?_
  rw [List.map_cons, htext]

theorem joinRest_breaks (lines : List (List Char)) (rest : List (String × String)) :
    joinRest (lines.map (fun l => ("br", String.ofList l)) ++ rest) =
      (String.join (lines.map fun l => "\n" ++ String.ofList l) ++ (joinRest rest).1,
        (joinRest rest).2) := by
  induction lines with
  | nil => simp
  | cons l lines ih =>
    rw [List.map_cons, List.cons_append, joinRest, if_pos rfl, ih, List.map_cons, String.join_cons]
    simp only [String.append_assoc]

/- The lines of a text joined again, whatever follows them. -/
theorem joinRest_breakText (s : String) (rest : List (String × String)) :
    (breakText s).1 ++ (joinRest ((breakText s).2 ++ rest)).1 = s ++ (joinRest rest).1 ∧
      (joinRest ((breakText s).2 ++ rest)).2 = (joinRest rest).2 := by
  obtain ⟨line, lines, hsplit, hbreak⟩ := breakText_eq s
  have hjoin : String.ofList line ++ String.join (lines.map fun l => "\n" ++ String.ofList l) =
      s := by
    have hlist : s.toList = ['\n'].intercalate (line :: lines) := by
      rw [← hsplit, List.intercalate_splitOn]
    rw [← String.toList_inj, hlist, String.toList_append, String.toList_ofList]
    clear hlist hsplit hbreak
    induction lines generalizing line with
    | nil => simp
    | cons l lines ih =>
      rw [List.intercalate_cons_cons, ← ih]
      simp
  rw [hbreak, joinRest_breaks]
  dsimp only
  rw [← String.append_assoc, hjoin]
  exact ⟨rfl, rfl⟩

theorem joinLines_breakLines {d : Doc} (h : ∀ t ∈ d.tags, t ≠ "br") :
    d.breakLines.joinLines = d := by
  obtain ⟨head, rest⟩ := d
  have hrest : ∀ rest : List (String × String), (∀ t ∈ rest.map Prod.fst, t ≠ "br") →
      joinRest (rest.flatMap fun p => (p.1, (breakText p.2).1) :: (breakText p.2).2) =
        ("", rest) := by
    intro rest hrest
    induction rest with
    | nil => rfl
    | cons p rest ih =>
      have ht := hrest p.1 List.mem_cons_self
      have ih := ih fun t ht => hrest t (List.mem_cons_of_mem _ ht)
      obtain ⟨hfirst, hothers⟩ := joinRest_breakText p.2
        (rest.flatMap fun p => (p.1, (breakText p.2).1) :: (breakText p.2).2)
      rw [List.flatMap_cons, List.cons_append, joinRest, if_neg ht, hfirst, hothers, ih,
        String.append_empty]
  obtain ⟨hfirst, hothers⟩ := joinRest_breakText head
    (rest.flatMap fun p => (p.1, (breakText p.2).1) :: (breakText p.2).2)
  rw [Doc.joinLines, Doc.breakLines]
  dsimp only
  rw [hfirst, hothers, hrest rest h, String.append_empty]

/-! ### Escaped documents -/

/- A tag a template may use: no bracket, no newline, and no `br`. -/
def IsTag (t : String) : Prop := t ≠ "br" ∧ ∀ c ∈ t.toList, c ∉ ['<', '>', '\n']

instance (t : String) : Decidable (IsTag t) :=
  @instDecidableAnd _ _ _ (List.decidableBAll (· ∉ ['<', '>', '\n']) t.toList)

theorem Doc.tags_map (f : String → String) (d : Doc) : (d.map f).tags = d.tags := by
  rw [tags, map, List.map_map, tags]
  rfl

theorem Doc.texts_map (f : String → String) (d : Doc) : (d.map f).texts = d.texts.map f := by
  rw [texts, map, List.map_map, texts, List.map_cons, List.map_map]
  rfl

section
variable {d : Doc} (h : ∀ t ∈ d.tags, IsTag t)
include h

theorem plain_escaped : (d.map htmlEscape).Plain where
  texts x hx := by
    rw [Doc.texts_map] at hx
    obtain ⟨y, -, rfl⟩ := List.mem_map.mp hx
    exact lt_notMem_htmlEscape y
  tags t ht := by
    rw [Doc.tags_map] at ht
    have htag := (h t ht).2
    exact ⟨fun hc => htag _ hc (by decide), fun hc => htag _ hc (by decide)⟩

theorem parse_escaped : parse (d.map htmlEscape).render = d.map htmlEscape :=
  parse_render (plain_escaped h)

/- After the replacement of newlines as well. -/
theorem parse_broken :
    parse (replace '\n' "<br>" (d.map htmlEscape).render) = (d.map htmlEscape).breakLines := by
  have hnewline : ∀ t ∈ (d.map htmlEscape).tags, '\n' ∉ t.toList := by
    intro t ht hc
    rw [Doc.tags_map] at ht
    exact (h t ht).2 _ hc (by decide)
  rw [← render_breakLines hnewline, parse_render (plain_escaped h).breakLines]

end

/- Escaping keeps the newlines. -/
theorem Escaped.count_newline {c : Char} {l : List Char} (h : Escaped c l) :
    l.count '\n' = [c].count '\n' := by
  cases h with
  | kept hamp hlt => rfl
  | reference r hlt hline hend hexpand =>
    rw [List.mem_cons, not_or] at hline
    rw [List.count_cons_of_ne (by decide), List.count_eq_zero_of_not_mem hline.2,
      List.count_cons_of_ne (Ne.symm hline.1), List.count_nil]

theorem breaks_htmlEscape (s : String) : breaks (htmlEscape s) = breaks s := by
  have hlist : ∀ l : List Char, (l.flatMap escapeChar).count '\n' = l.count '\n' := by
    intro l
    induction l with
    | nil => rfl
    | cons c l ih =>
      rw [List.flatMap_cons, List.count_append, ih, (escapeChar_escaped c).count_newline,
        ← List.count_append, List.singleton_append]
  rw [breaks, breaks, toList_htmlEscape, hlist]

theorem brokenTags_escaped (d : Doc) : (d.map htmlEscape).brokenTags = d.brokenTags := by
  simp only [Doc.brokenTags, Doc.map, List.flatMap_map, breaks_htmlEscape]

/-! ### What a reader finds -/

/- The tags, and the texts around them with their references read. -/
structure Shows (refs : CharRefs) (html : String) (tags texts : List String) : Prop where
  tags : (parse html).tags = tags
  texts : (parse html).texts.map refs.unescape = texts

/- The same for a document whose newlines became `br`: as it stands, and with each `br` read
as a newline again. -/
structure ShowsLines (refs : CharRefs) (html : String) (tags : List String) (d : Doc) :
    Prop where
  broken : (parse html).tags = d.brokenTags
  tags : (parse html).joinLines.tags = tags
  texts : (parse html).joinLines.texts.map refs.unescape = d.texts

section
variable (refs : CharRefs) {d : Doc} (h : ∀ t ∈ d.tags, IsTag t)

theorem unescape_texts (d : Doc) : (d.map htmlEscape).texts.map refs.unescape = d.texts := by
  rw [Doc.texts_map, List.map_map]
  conv_rhs => rw [← List.map_id d.texts]
  exact List.map_congr_left fun x _ => refs.unescape_htmlEscape x

include h

theorem shows_escaped : Shows refs (d.map htmlEscape).render d.tags d.texts where
  tags := by rw [parse_escaped h, Doc.tags_map]
  texts := by rw [parse_escaped h, unescape_texts]

theorem showsLines_escaped :
    ShowsLines refs (replace '\n' "<br>" (d.map htmlEscape).render) d.tags d := by
  have hbr : ∀ t ∈ (d.map htmlEscape).tags, t ≠ "br" := by
    intro t ht
    rw [Doc.tags_map] at ht
    exact (h t ht).1
  refine ⟨?_, ?_, ?_⟩
  · rw [parse_broken h, tags_breakLines, brokenTags_escaped]
  · rw [parse_broken h, joinLines_breakLines hbr, Doc.tags_map]
  · rw [parse_broken h, joinLines_breakLines hbr, unescape_texts]

end

end Html
