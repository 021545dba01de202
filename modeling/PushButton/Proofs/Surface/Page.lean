import PushButton.Proofs.Text.Codes
import PushButton.Surface.Page

/-!
# Labels and colours in the page of a surface

The page is a template with a place for the colour and a place for the label. What is written there
keeps within its place: it adds none of the symbols that delimit tags and attributes, and it is not
taken for a part of the template. So both texts can be read off the page.
-/

namespace PushButton

namespace Page

/-! ## Escaped symbols -/

/-- The symbols that are written by name. -/
def named : List Symbol := [.char '&', .char '<', .char '>', .char '"', .char '\'']

/-- The symbols that delimit tags and the values of attributes. -/
def marks : List Symbol := [.char '<', .char '>', .char '"', .char '\'']

/-- A symbol without a name stands for itself. -/
theorem escapeSymbol_of_notMem {s : Symbol} (hs : s ∉ named) : escapeSymbol s = [s] := by
  simp only [named, List.mem_cons, List.not_mem_nil, or_false, not_or] at hs
  obtain ⟨hand, hless, hgreater, hdouble, hsingle⟩ := hs
  unfold escapeSymbol
  rw [if_neg hand, if_neg hless, if_neg hgreater, if_neg hdouble, if_neg hsingle]

/-- A name is an ampersand and a text that begins with a symbol of its own. -/
theorem escapeSymbol_of_mem {s : Symbol} (hs : s ∈ named) :
    ∃ rest, escapeSymbol s = .char '&' :: rest ∧ rest ≠ [] := by
  have hall : ∀ s ∈ named, (escapeSymbol s).head? = some (.char '&') ∧ (escapeSymbol s).tail ≠ [] :=
    by decide
  obtain ⟨hhead, htail⟩ := hall s hs
  exact ⟨_, List.eq_cons_of_mem_head? hhead, htail⟩

/-- Names differ in their second symbol. -/
theorem eq_of_second {a b : Symbol} (ha : a ∈ named) (hb : b ∈ named)
    (h : (escapeSymbol a)[1]? = (escapeSymbol b)[1]?) : a = b := by
  have hall : ∀ a ∈ named, ∀ b ∈ named, (escapeSymbol a)[1]? = (escapeSymbol b)[1]? → a = b := by
    decide
  exact hall a ha b hb h

/-- Behind a name, the second symbol of the text is still that of the name. -/
theorem second_append {s : Symbol} (hs : s ∈ named) (rest : Text) :
    (escapeSymbol s ++ rest)[1]? = (escapeSymbol s)[1]? := by
  obtain ⟨tail, hword, htail⟩ := escapeSymbol_of_mem hs
  obtain ⟨x, tail, rfl⟩ := List.exists_cons_of_ne_nil htail
  rw [hword]
  rfl

/-- Escaped symbols are told apart, whatever is written behind them. -/
theorem isPrefixFree_escapeSymbol : Text.IsPrefixFree escapeSymbol := by
  have hmixed {a b : Symbol} {u v : Text} (ha : a ∉ named) (hb : b ∈ named) :
      escapeSymbol a ++ u ≠ escapeSymbol b ++ v := by
    obtain ⟨rest, hword, -⟩ := escapeSymbol_of_mem hb
    rw [escapeSymbol_of_notMem ha, hword]
    rintro heq
    exact ha ((List.cons.inj heq).1 ▸ by decide)
  intro a b u v heq
  by_cases ha : a ∈ named
  · by_cases hb : b ∈ named
    · have hsecond := congrArg (·[1]?) heq
      rw [second_append ha, second_append hb] at hsecond
      obtain rfl := eq_of_second ha hb hsecond
      exact ⟨rfl, List.append_cancel_left heq⟩
    · exact absurd heq.symm (hmixed hb ha)
  · by_cases hb : b ∈ named
    · exact absurd heq (hmixed ha hb)
    · rw [escapeSymbol_of_notMem ha, escapeSymbol_of_notMem hb] at heq
      exact List.cons.inj heq

/-- No mark occurs in an escaped symbol. -/
theorem notMem_escapeSymbol {mark s : Symbol} (hmark : mark ∈ marks) : mark ∉ escapeSymbol s := by
  by_cases hs : s ∈ named
  · have hall : ∀ s ∈ named, ∀ x ∈ escapeSymbol s, x ∉ marks := by decide
    exact fun hmem => hall s hs mark hmem hmark
  · have hnamed : ∀ x ∈ marks, x ∈ named := by decide
    rw [escapeSymbol_of_notMem hs, List.mem_singleton]
    rintro rfl
    exact hs (hnamed mark hmark)

/-! ## Escaped texts -/

/-- No mark occurs in an escaped text. -/
theorem notMem_escape {mark : Symbol} (hmark : mark ∈ marks) (t : Text) : mark ∉ escape t := by
  intro hmem
  obtain ⟨s, -, hs⟩ := List.mem_flatMap.mp hmem
  exact notMem_escapeSymbol hmark hs

/-- Escaped symbols are told apart up to the beginning of a tag. -/
theorem isDelimited_escapeSymbol : Text.IsDelimited escapeSymbol (.char '<') where
  apart := isPrefixFree_escapeSymbol
  begins s := by
    have hnot : Symbol.char '<' ∉ escapeSymbol s := notMem_escapeSymbol (by decide)
    cases hword : escapeSymbol s with
    | nil =>
      by_cases hs : s ∈ named
      · obtain ⟨rest, hname, -⟩ := escapeSymbol_of_mem hs
        cases hword.symm.trans hname
      · cases hword.symm.trans (escapeSymbol_of_notMem hs)
    | cons x rest =>
      refine ⟨x, rest, rfl, ?_⟩
      rintro rfl
      exact hnot (hword ▸ List.mem_cons_self)

/-- A text is escaped part by part. -/
theorem escape_append (t u : Text) : escape (t ++ u) = escape t ++ escape u := List.flatMap_append

/-! ## The template -/

/-- A text as it is written in a template, where braces are doubled. -/
def doubled (t : Text) : Text :=
  t.flatMap fun s => if s = .char '\x7b' ∨ s = .char '\x7d' then [s, s] else [s]

/-- The page with names in braces in the places of the colour and the label. -/
def template : Text :=
  doubled top ++ (.char '\x7b' :: "color" ++ .char '\x7d' ::
    (doubled middle ++ (.char '\x7b' :: "label" ++ .char '\x7d' :: doubled bottom)))

/-- Where a reader of a template is. -/
inductive Place where
  /-- In the text of the template. -/
  | text
  /-- Behind an opening brace. -/
  | opened
  /-- Behind a closing brace. -/
  | closed
  /-- In braces, behind the beginning of a name. -/
  | inName (start : Text)

/-- A template filled in, in one pass over it: a doubled brace becomes one brace, and a name in
braces becomes its value, which is not gone over. -/
def fillFrom (value? : Text → Option Text) : Place → Text → Option Text
  | .text, [] => some []
  | _, [] => none
  | .text, s :: rest =>
    if s = .char '\x7b' then fillFrom value? .opened rest
    else if s = .char '\x7d' then fillFrom value? .closed rest
    else (fillFrom value? .text rest).map (s :: ·)
  | .opened, s :: rest =>
    if s = .char '\x7b' then (fillFrom value? .text rest).map (s :: ·)
    else if s = .char '\x7d' then none
    else fillFrom value? (.inName [s]) rest
  | .closed, s :: rest =>
    if s = .char '\x7d' then (fillFrom value? .text rest).map (s :: ·) else none
  | .inName start, s :: rest =>
    if s = .char '\x7d' then
      (value? start).bind fun value => (fillFrom value? .text rest).map (value ++ ·)
    else fillFrom value? (.inName (start ++ [s])) rest

/-- The values of the names in the template. -/
def value? (label color : Text) (name : Text) : Option Text :=
  if name = "label" then some (escape label)
  else if name = "color" then some (escape color)
  else none

section Filling

variable {value? : Text → Option Text}

/-- A text with doubled braces becomes the text. -/
theorem fillFrom_doubled (t rest : Text) :
    fillFrom value? .text (doubled t ++ rest) = (fillFrom value? .text rest).map (t ++ ·) := by
  induction t with
  | nil => exact Option.map_id'.symm
  | cons s t ih =>
    have hcons : doubled (s :: t) ++ rest =
        (if s = .char '\x7b' ∨ s = .char '\x7d' then [s, s] else [s]) ++ (doubled t ++ rest) :=
      List.append_assoc ..
    have hmap : (fillFrom value? .text rest).map (s :: t ++ ·) =
        (fillFrom value? .text (doubled t ++ rest)).map (s :: ·) := by
      rw [ih, Option.map_map]
      rfl
    rw [hcons, hmap]
    by_cases hopen : s = .char '\x7b'
    · subst hopen
      rfl
    · by_cases hclose : s = .char '\x7d'
      · subst hclose
        rfl
      · rw [if_neg (by simp [hopen, hclose]), List.singleton_append, fillFrom, if_neg hopen,
          if_neg hclose]

/-- A name up to its closing brace becomes its value. -/
theorem fillFrom_inName {name : Text} (hname : .char '\x7d' ∉ name) (start rest : Text) :
    fillFrom value? (.inName start) (name ++ .char '\x7d' :: rest) =
      (value? (start ++ name)).bind fun value =>
        (fillFrom value? .text rest).map (value ++ ·) := by
  induction name generalizing start with
  | nil =>
    rw [List.nil_append, List.append_nil, fillFrom, if_pos rfl]
  | cons s name ih =>
    rw [List.mem_cons, not_or] at hname
    rw [List.cons_append, fillFrom, if_neg (Ne.symm hname.1), ih hname.2, List.append_assoc]
    rfl

/-- A name in braces becomes its value. -/
theorem fillFrom_name {s : Symbol} {name : Text} (hs : s ≠ .char '\x7b')
    (hname : .char '\x7d' ∉ s :: name) (rest : Text) :
    fillFrom value? .text (.char '\x7b' :: (s :: name) ++ .char '\x7d' :: rest) =
      (value? (s :: name)).bind fun value =>
        (fillFrom value? .text rest).map (value ++ ·) := by
  rw [List.mem_cons, not_or] at hname
  rw [List.cons_append, List.cons_append, fillFrom, if_pos rfl, fillFrom, if_neg hs,
    if_neg (Ne.symm hname.1), fillFrom_inName hname.2, List.singleton_append]

end Filling

/-- The page is the template filled in once with the escaped texts. -/
theorem fillFrom_template (label color : Text) :
    fillFrom (value? label color) .text template = some (document label color) := by
  have hbottom : fillFrom (value? label color) .text (doubled bottom) = some bottom := by
    have h : fillFrom (value? label color) .text (doubled bottom ++ []) =
        (fillFrom (value? label color) .text []).map (bottom ++ ·) := fillFrom_doubled bottom []
    rwa [List.append_nil, fillFrom, Option.map_some, List.append_nil] at h
  have hlabel : fillFrom (value? label color) .text
      (.char '\x7b' :: Text.ofString "label" ++ .char '\x7d' :: doubled bottom) =
        some (escape label ++ bottom) := by
    refine (fillFrom_name (by decide) (by decide) _).trans ?_
    rw [hbottom]
    rfl
  have hcolor : fillFrom (value? label color) .text
      (.char '\x7b' :: Text.ofString "color" ++ .char '\x7d' :: (doubled middle ++
        (.char '\x7b' :: "label" ++ .char '\x7d' :: doubled bottom))) =
        some (escape color ++ (middle ++ (escape label ++ bottom))) := by
    refine (fillFrom_name (by decide) (by decide) _).trans ?_
    rw [fillFrom_doubled, hlabel]
    rfl
  rw [template, fillFrom_doubled, hcolor, document]
  simp only [Option.map_some, List.append_assoc]

/-! ## Places in the page -/

/-- A symbol that does not occur in the middle of three parts occurs in the others. -/
theorem getElem?_append_eq_some_iff {s : Symbol} {front inside back : Text} (hs : s ∉ inside)
    (i : Nat) : (front ++ (inside ++ back))[i]? = some s ↔
      front[i]? = some s ∨ ∃ j, i = front.length + inside.length + j ∧ back[j]? = some s := by
  rw [List.getElem?_append]
  split
  · next hfront =>
    refine ⟨Or.inl, ?_⟩
    rintro (h | ⟨j, rfl, -⟩)
    · exact h
    · omega
  · next hfront =>
    have hnone : front[i]? = none := List.getElem?_eq_none (Nat.le_of_not_lt hfront)
    rw [hnone, List.getElem?_append]
    split
    · next hinside =>
      constructor
      · exact fun h => absurd (List.mem_of_getElem? h) hs
      · rintro (h | ⟨j, rfl, -⟩)
        · cases h
        · omega
    · next hinside =>
      constructor
      · exact fun h => Or.inr ⟨i - front.length - inside.length, by omega, h⟩
      · rintro (h | ⟨j, rfl, h⟩)
        · cases h
        · rwa [show front.length + inside.length + j - front.length - inside.length = j by omega]

/-- The marks of the page are those of the template, in their places. -/
theorem getElem?_document_iff {mark : Symbol} (hmark : mark ∈ marks) (label color : Text)
    (i : Nat) : (document label color)[i]? = some mark ↔
      top[i]? = some mark ∨
      (∃ j, i = top.length + (escape color).length + j ∧ middle[j]? = some mark) ∨
      (∃ j, i = top.length + (escape color).length + middle.length + (escape label).length + j ∧
        bottom[j]? = some mark) := by
  have hassoc : document label color =
      top ++ (escape color ++ (middle ++ (escape label ++ bottom))) := by
    simp only [document, List.append_assoc]
  rw [hassoc, getElem?_append_eq_some_iff (notMem_escape hmark color)]
  refine or_congr Iff.rfl ?_
  simp only [getElem?_append_eq_some_iff (notMem_escape hmark label)]
  constructor
  · rintro ⟨j, rfl, h | ⟨k, rfl, h⟩⟩
    · exact Or.inl ⟨j, rfl, h⟩
    · exact Or.inr ⟨k, by omega, h⟩
  · rintro (⟨j, rfl, h⟩ | ⟨k, rfl, h⟩)
    · exact ⟨j, rfl, Or.inl h⟩
    · exact ⟨middle.length + (escape label).length + k, by omega, Or.inr ⟨k, rfl, h⟩⟩

/-! ## Reading the texts off the page -/

/-- Behind the colour, the template has a tag. -/
theorem mem_middle : .char '<' ∈ middle := by
  have htag : .char '<' ∈ Text.ofString "</style></head>\n" := by decide
  simp only [middle, Text.ofString_append, List.mem_append, htag, true_or, or_true]

/-- Behind the label, the template goes on with a tag. -/
theorem exists_bottom_eq : ∃ back, bottom = .char '<' :: back := by
  have hfirst : Text.ofString "</button>\n" = .char '<' :: Text.ofString "/button>\n" := by decide
  simp only [bottom, Text.ofString_append, List.append_assoc]
  exact ⟨_, congrArg (· ++ _) hfirst⟩

/-- The page determines the label and the colour: the first tag behind the colour shows where the
colour ends, and the tag behind the label shows where the label ends. -/
theorem document_inj {label color label' color' : Text}
    (heq : document label color = document label' color') : label = label' ∧ color = color' := by
  have hless (t : Text) : Symbol.char '<' ∉ escape t := notMem_escape (by decide) t
  obtain ⟨front, back, hmiddle, hfront⟩ := List.eq_append_cons_of_mem mem_middle
  obtain ⟨rest, hbottom⟩ := exists_bottom_eq
  have hshape (label color : Text) : document label color = top ++ (escape color ++ front ++
      .char '<' :: (back ++ (escape label ++ .char '<' :: rest))) := by
    simp only [document, hmiddle, hbottom, List.append_assoc, List.cons_append]
  rw [hshape, hshape, List.append_cancel_left_eq] at heq
  have hnot (color : Text) : Symbol.char '<' ∉ escape color ++ front := by
    simp only [List.mem_append, hless color, hfront, or_self, not_false_eq_true]
  obtain ⟨hcolor, hlabel⟩ := Text.append_cons_inj (hnot _) (hnot _) heq
  constructor
  · exact (isDelimited_escapeSymbol.flatMap_append_cons_inj (List.append_cancel_left hlabel)).1
  · exact isDelimited_escapeSymbol.flatMap_injective (List.append_cancel_right hcolor)

/-- **The page template is not broken by its data.** The page is the template filled in once, so that
text in braces in the label or the colour stays as it is; the symbols that delimit tags and
attributes stand exactly where the template has them; and the page determines label and colour. -/
theorem document_keeps_template (label color : Text) :
    fillFrom (value? label color) .text template = some (document label color) ∧
    (∀ before name after : Text,
      document (before ++ "\x7b" ++ name ++ "\x7d" ++ after) color =
        top ++ escape color ++ middle ++
          (escape before ++ "\x7b" ++ escape name ++ "\x7d" ++ escape after) ++ bottom ∧
      document label (before ++ "\x7b" ++ name ++ "\x7d" ++ after) =
        top ++ (escape before ++ "\x7b" ++ escape name ++ "\x7d" ++ escape after) ++
          middle ++ escape label ++ bottom) ∧
    (∀ mark ∈ marks, ∀ i, (document label color)[i]? = some mark ↔
      top[i]? = some mark ∨
      (∃ j, i = top.length + (escape color).length + j ∧ middle[j]? = some mark) ∨
      (∃ j, i = top.length + (escape color).length + middle.length + (escape label).length + j ∧
        bottom[j]? = some mark)) ∧
    (∀ label' color', document label color = document label' color' →
      label = label' ∧ color = color') := by
  have hbraces (before name after : Text) :
      escape (before ++ "\x7b" ++ name ++ "\x7d" ++ after) =
        escape before ++ "\x7b" ++ escape name ++ "\x7d" ++ escape after := by
    have hopen : escape "\x7b" = "\x7b" := by decide
    have hclose : escape "\x7d" = "\x7d" := by decide
    simp only [escape_append, hopen, hclose]
  refine ⟨fillFrom_template label color, ?_, ?_, ?_⟩
  · intro before name after
    constructor
    · rw [document, hbraces]
    · rw [document, hbraces]
  · exact fun mark hmark i => getElem?_document_iff hmark label color i
  · exact fun label' color' heq => document_inj heq

end Page

end PushButton
