import PushButton.Proofs.Json.Symbols
import PushButton.Proofs.Surface.Markup
import PushButton.Surface.Rendering

/-!
# Rendered surfaces are faithful

A rendered surface shows the label, the size, the colour, the mark of a disabled button, all lines
and all addresses as they are. Markup in the colour is not escaped, and escaping does not protect
every text: the conditions under which all texts are shown as they are can be computed.
-/

namespace PushButton

namespace Markup

variable {opened : List Text} {rest : Text}

/-! ## Texts on lines of their own -/

/-- No text leaves a tag open that the texts behind it close. -/
def areApart : List Text → Bool
  | [] => true
  | t :: later => !(leavesOpen t && closesFirst later.flatten) && areApart later

/-- Texts that are shown as they are on lines of their own. -/
structure AreKept (ts : List Text) : Prop where
  /-- Every backslash in front of an opening bracket stands in front of a tag. -/
  spelled : ∀ t ∈ ts, isSpelled false t = true
  /-- No text ends in a single backslash. -/
  ending : ∀ t ∈ ts, endingSlashes t ≠ 1
  /-- No tag reaches from one text into another. -/
  apart : areApart ts = true

/-- Lines, each behind a line feed. -/
def below (lines : List Text) : Text := lines.flatMap fun line => .char '\n' :: line

/-- Texts that are joined by line feeds. -/
theorem join_cons (line : Text) (lines : List Text) :
    Text.join "\n" (line :: lines) = line ++ below lines := by
  induction lines generalizing line with
  | nil => simp [Text.join, below]
  | cons next lines ih =>
    have hjoin : Text.join "\n" (line :: next :: lines) =
        line ++ ("\n" ++ Text.join "\n" (next :: lines)) := by simp [Text.join]
    rw [hjoin, ih]
    rfl

/-- What stands on lines of its own has nothing to do with what is above. -/
theorem isApart_below (lines : List Text) (hrest : IsApart rest) :
    IsApart (below lines ++ rest) := by
  cases lines with
  | nil => exact hrest
  | cons line lines =>
    rintro s ⟨⟩
    decide

/-- Escaping does not change which bracket is the first. -/
theorem closesFirst_escape (t rest : Text) :
    closesFirst (escape t ++ rest) = closesFirst (t ++ rest) := by
  obtain ⟨lead, shown, ending, h⟩ := exists_protected 0 t
  have hfind (n : Nat) : closesFirst (lead ++ slashes n ++ rest) = closesFirst (lead ++ rest) := by
    unfold closesFirst
    rw [List.find?_append, List.find?_append, List.find?_append, find?_slashes, Option.or_none]
  rw [← closesFirst_protectFrom 0 t, h.escape_eq, h.escaped, hfind, hfind]

/-- Texts, each escaped and behind a mark. -/
def written (entries : List (Text × Text)) : List Text :=
  entries.map fun (mark, t) => mark ++ escape t

/-- Texts, each behind a mark. -/
def listed (entries : List (Text × Text)) : List Text := entries.map fun (mark, t) => mark ++ t

/-- A line feed with an inert mark is inert. -/
theorem IsInert.below {mark : Text} (h : IsInert mark) : IsInert (.char '\n' :: mark) := by
  intro s hs
  obtain rfl | hs := List.mem_cons.mp hs
  · decide
  · exact h s hs

/-- Which bracket is the first does not depend on marks and escaping. -/
theorem closesFirst_written {entries : List (Text × Text)} (hmarks : ∀ e ∈ entries, IsInert e.1)
    (hrest : closesFirst rest = false) :
    closesFirst (below (written entries) ++ rest) = closesFirst (entries.map (·.2)).flatten := by
  induction entries with
  | nil => exact hrest
  | cons e entries ih =>
    have hmark := (hmarks e List.mem_cons_self).below
    have hsplit : below (written (e :: entries)) ++ rest =
        (.char '\n' :: e.1) ++ (escape e.2 ++ (below (written entries) ++ rest)) := by
      simp [below, written]
    rw [hsplit, closesFirst_inert hmark, closesFirst_escape, closesFirst_append,
      ih fun e he => hmarks e (List.mem_cons_of_mem _ he), List.map_cons, List.flatten_cons,
      closesFirst_append]

/-- Texts that are kept mean themselves on lines of their own. The induction is on the texts. -/
theorem reads_written {entries : List (Text × Text)} (hmarks : ∀ e ∈ entries, IsInert e.1)
    (hkept : AreKept (entries.map (·.2))) (hrest : IsApart rest)
    (hcloses : closesFirst rest = false) :
    Reads opened opened (below (written entries)) (below (listed entries)) rest := by
  induction entries with
  | nil => exact Reads.nil
  | cons e entries ih =>
    have hmarks' : ∀ e ∈ entries, IsInert e.1 := fun e he => hmarks e (List.mem_cons_of_mem _ he)
    have hapart := hkept.apart
    rw [List.map_cons, areApart, Bool.and_eq_true, Bool.not_eq_true'] at hapart
    obtain ⟨hopen, hlater⟩ := hapart
    have hbehind : Reads opened opened (below (written entries)) (below (listed entries)) rest :=
      ih hmarks' ⟨fun t ht => hkept.spelled t (List.mem_cons_of_mem _ ht),
        fun t ht => hkept.ending t (List.mem_cons_of_mem _ ht), hlater⟩
    have htext : Reads opened opened (escape e.2) e.2 (below (written entries) ++ rest) := by
      refine reads_escape (hkept.spelled _ List.mem_cons_self) (hkept.ending _ List.mem_cons_self)
        (fun h => ?_) (isApart_below _ hrest)
      rwa [closesFirst_written hmarks' hcloses, ← Bool.true_and (closesFirst _), ← h]
    have hmark : Reads opened opened (.char '\n' :: e.1) (.char '\n' :: e.1)
        (escape e.2 ++ below (written entries) ++ rest) := (hmarks e List.mem_cons_self).below.reads
    have hwhole := hmark.append (htext.append hbehind)
    simpa [below, written, listed] using hwhole

/-! ## Styles -/

/-- A name that opens a style, and closes it behind a slash. -/
def IsName (t : Text) : Prop :=
  t.head?.any opens = true ∧ t.any isBracket = false ∧ Text.cut? (.char '=') t = none ∧
    Text.after? t "/" = none ∧ t.strip = t

instance (t : Text) : Decidable (IsName t) := inferInstanceAs (Decidable (_ ∧ _ ∧ _ ∧ _ ∧ _))

/-- A name opens its style. -/
theorem IsName.apply_eq {name : Text} (h : IsName name) (position : Nat) :
    apply name position opened = .ok (Style.normal name :: opened) := by
  obtain ⟨-, -, hcut, hslash, -⟩ := h
  unfold apply
  rw [hcut]
  dsimp only [Option.map_none, Option.getD_none]
  rw [hslash]

/-- A name closes its style behind a slash. -/
theorem IsName.apply_closing {name : Text} (h : IsName name) (position : Nat) :
    apply (.char '/' :: name) position (Style.normal name :: opened) = .ok opened := by
  obtain ⟨hopens, -, hcut, -, hstrip⟩ := h
  have hcut' : Text.cut? (.char '=') (.char '/' :: name) = none := by
    rw [Text.cut?, if_neg (by decide), hcut]
    rfl
  have hafter : Text.after? (.char '/' :: name) "/" = some name := rfl
  have hname : name.isEmpty = false := by
    cases name with
    | nil => exact absurd hopens (by decide)
    | cons s t => rfl
  unfold apply
  rw [hcut']
  dsimp only [Option.map_none, Option.getD_none]
  rw [hafter]
  dsimp only
  rw [hstrip, hname]
  simp

/-- A tag that opens the style of a name. -/
theorem IsName.reads_opening {name : Text} (h : IsName name) :
    Reads opened (Style.normal name :: opened) (bracketed name) [] rest :=
  reads_tag 0 h.1 h.2.1 h.apply_eq

/-- A tag that closes the style of a name. -/
theorem IsName.reads_closing {name : Text} (h : IsName name) :
    Reads (Style.normal name :: opened) opened (bracketed (.char '/' :: name)) [] rest := by
  refine reads_tag 0 rfl ?_ h.apply_closing
  rw [List.any_cons, h.2.1]
  rfl

/-- An inert text in a style stands for itself. -/
theorem IsName.reads_styled {name t : Text} (h : IsName name) (ht : IsInert t) :
    Reads opened opened (bracketed name ++ (t ++ bracketed (.char '/' :: name))) t rest := by
  have hopening : Reads opened (Style.normal name :: opened) (bracketed name) []
      (t ++ bracketed (.char '/' :: name) ++ rest) := h.reads_opening
  have hwhole := hopening.append (ht.reads.append h.reads_closing)
  simpa using hwhole

/-- One inert text behind another is inert. -/
theorem IsInert.append {t u : Text} (ht : IsInert t) (hu : IsInert u) : IsInert (t ++ u) := by
  intro s hs
  rcases List.mem_append.mp hs with hs | hs
  · exact ht s hs
  · exact hu s hs

end Markup

namespace SurfaceState

open Markup

/-! ## Numerals -/

/-- A condition on symbols that holds of those that occur in numerals. -/
structure HoldsOfNumerals (P : Symbol → Prop) : Prop where
  /-- It holds of digits. -/
  digit : ∀ c : Char, c.isDigit = true → P (.char c)
  /-- It holds of the point, of the sign and of the letters. -/
  other : ∀ s ∈ (".-infa" : Text), P s

variable {P : Symbol → Prop}

/-- The condition holds of the numerals of natural numbers. -/
theorem HoldsOfNumerals.ofNat (h : HoldsOfNumerals P) (n : Nat) : ∀ s ∈ Text.ofNat n, P s := by
  intro s hs
  obtain ⟨c, hc, rfl⟩ := List.mem_map.mp hs
  exact h.digit c (Nat.isDigit_of_mem_toDigits (by decide) (by decide) hc)

/-- The condition holds of numbers with one place. -/
theorem HoldsOfNumerals.fixed (h : HoldsOfNumerals P) (x : Float) :
    ∀ s ∈ Decimal.fixed 1 x, P s := by
  have hword {word : Text} (hsub : word ⊆ ".-infa") : ∀ s ∈ word, P s :=
    fun s hs => h.other s (hsub hs)
  unfold Decimal.fixed
  split
  · next d _ =>
    unfold Decimal.Dyadic.fixed
    dsimp only
    rw [if_neg Nat.one_ne_zero]
    refine Json.forall_mem_append (Json.forall_mem_append ?_ (h.ofNat _)) ?_
    · split
      · exact hword (by decide)
      · exact hword (by decide)
    · refine Json.forall_mem_append (hword (by decide)) (Json.forall_mem_append ?_ (h.ofNat _))
      intro s hs
      rw [List.eq_of_mem_replicate hs]
      exact h.digit '0' (by decide)
  · split
    · exact hword (by decide)
    · exact hword (by decide)
  · exact hword (by decide)

/-- Nothing in a numeral has a meaning in markup. -/
theorem holdsOfNumerals_inert :
    HoldsOfNumerals fun s => isBracket s = false ∧ s ≠ .char '\\' where
  digit c hc := by
    have hne {x : Char} (hx : x.isDigit = false) : Symbol.char c ≠ .char x := by
      rintro ⟨⟩
      rw [hc] at hx
      cases hx
    refine ⟨?_, hne rfl⟩
    rw [isBracket, decide_eq_false (hne rfl), decide_eq_false (hne rfl)]
    rfl
  other := by decide

/-- Nothing in a numeral is hidden. -/
theorem holdsOfNumerals_visible : HoldsOfNumerals fun s => isHidden s = false where
  digit c hc := by
    have hlow : 48 ≤ c.toNat := (Symbol.isDigit_bounds hc).1
    have hcode : (Symbol.char c).code ∉ [7, 8, 11, 12, 13] := by
      simp only [Symbol.code, List.mem_cons, List.not_mem_nil, or_false]
      omega
    simpa [isHidden] using hcode
  other := by decide

/-! ## The parts of a surface -/

/-- A heading and what stands below it, without markup. -/
def plainPart (heading : Text) (lines : List Text) : List Text :=
  if lines.isEmpty then [] else [] :: (heading ++ ":") :: lines

/-- The lines, in order, each behind two spaces. -/
def lineEntries (s : SurfaceState) : List (Text × Text) := s.output.map fun t => ("  ", t)

/-- The addresses, in order, each behind its number. -/
def imageEntries (s : SurfaceState) : List (Text × Text) :=
  s.images.zipIdx.map fun ((url : Text), i) => ("  " ++ Text.ofNat (i + 1) ++ ". ", url)

/-- What a surface shows: the label, the size and the colour, a mark when the button is disabled,
all lines, and all addresses with their numbers. -/
def plain (label : Text) (s : SurfaceState) : Text :=
  let button : Text := label ++ "  scale=" ++ Decimal.fixed 1 s.scale ++ "  color=" ++ s.color ++
    (if s.disabled then ("  (disabled)" : Text) else [])
  Text.join "\n" (button :: plainPart "Output" (listed s.lineEntries) ++
    plainPart "Images" (listed s.imageEntries))

/-- A surface under a label with texts that are all shown as they are. -/
structure IsKept (label : Text) (s : SurfaceState) : Prop where
  /-- Every backslash of the label in front of an opening bracket stands in front of a tag. -/
  label_spelled : isSpelled false label = true
  /-- The label ends in no more than one backslash. -/
  label_ending : endingSlashes label ≤ 1
  /-- The colour holds no markup. -/
  color : hasMarkup false s.color = false
  /-- The lines are shown as they are. -/
  output : AreKept s.output
  /-- The addresses are shown as they are. -/
  images : AreKept s.images

variable {opened : List Text} {rest : Text}

/-- The name of the style of headings and labels. -/
theorem isName_bold : IsName "bold" := by decide

/-- The name of the style of the mark of a disabled button. -/
theorem isName_red : IsName "red" := by decide

/-- Lines below one another. -/
theorem below_append (lines lines' : List Text) :
    below (lines ++ lines') = below lines ++ below lines' := List.flatMap_append

/-- A part closes no tag that was left open above it. -/
theorem closesFirst_part (heading : Text) (lines : List Text) (hrest : closesFirst rest = false) :
    closesFirst (below (part heading lines) ++ rest) = false := by
  unfold part
  dsimp only
  split
  · exact hrest
  · rfl

/-- A heading as it is written. -/
theorem heading_eq (heading : Text) : ("[bold]" ++ heading ++ ":[/bold]" : Text) =
    bracketed "bold" ++ ((heading ++ ":") ++ bracketed (.char '/' :: ("bold" : Text))) := by
  rw [List.append_assoc, List.append_assoc]
  rfl

/-- A part means its heading and its texts. -/
theorem reads_part {heading : Text} {entries : List (Text × Text)} (hheading : IsInert heading)
    (hmarks : ∀ e ∈ entries, IsInert e.1) (hkept : AreKept (entries.map (·.2)))
    (hrest : IsApart rest) (hcloses : closesFirst rest = false) :
    Reads opened opened (below (part heading (written entries)))
      (below (plainPart heading (listed entries))) rest := by
  cases entries with
  | nil => exact Reads.nil
  | cons e entries =>
    have hpart : below (part heading (written (e :: entries))) = ("\n\n" : Text) ++
        (("[bold]" ++ heading ++ ":[/bold]" : Text) ++ below (written (e :: entries))) := rfl
    have hplain : below (plainPart heading (listed (e :: entries))) = ("\n\n" : Text) ++
        ((heading ++ ":") ++ below (listed (e :: entries))) := rfl
    have hline : Reads opened opened ("[bold]" ++ heading ++ ":[/bold]" : Text) (heading ++ ":")
        (below (written (e :: entries)) ++ rest) := by
      rw [heading_eq]
      exact isName_bold.reads_styled (hheading.append (by decide))
    have hbreaks : IsInert "\n\n" := by decide
    rw [hpart, hplain]
    exact hbreaks.reads.append (hline.append (reads_written hmarks hkept hrest hcloses))

/-- The mark of a disabled button as it is written. -/
theorem mark_eq : ("  [red](disabled)[/red]" : Text) =
    "  " ++ (bracketed "red" ++ ("(disabled)" ++ bracketed (.char '/' :: ("red" : Text)))) := by
  decide

/-- The mark of a disabled button as it is shown. -/
theorem plainMark_eq : ("  (disabled)" : Text) = "  " ++ "(disabled)" := by decide

/-- The line about the button in front of the colour. -/
def front (label : Text) (s : SurfaceState) : Text :=
  ("[bold]" : Text) ++ escape label ++ "[/bold]" ++ "  scale=" ++ Decimal.fixed 1 s.scale ++
    "  color="

/-- What the line about the button shows in front of the colour. -/
def plainFront (label : Text) (s : SurfaceState) : Text :=
  label ++ "  scale=" ++ Decimal.fixed 1 s.scale ++ "  color="

/-- What stands in front of the colour means what it shows. -/
theorem reads_front {label : Text} (s : SurfaceState) (hspelled : isSpelled false label = true)
    (hending : endingSlashes label ≤ 1) :
    Reads opened opened (s.front label) (s.plainFront label) rest := by
  have hsize : IsInert ("  scale=" ++ Decimal.fixed 1 s.scale ++ "  color=") :=
    IsInert.append (IsInert.append (by decide) (holdsOfNumerals_inert.fixed s.scale)) (by decide)
  have hfront : s.front label =
      (bracketed "bold" ++ (escape label ++ bracketed (.char '/' :: ("bold" : Text)))) ++
        ("  scale=" ++ Decimal.fixed 1 s.scale ++ "  color=") := by
    simp only [front, List.append_assoc]
    rfl
  have hplain : s.plainFront label =
      label ++ ("  scale=" ++ Decimal.fixed 1 s.scale ++ "  color=") := by
    simp only [plainFront, List.append_assoc]
  rw [hfront, hplain]
  refine Reads.append (Reads.append isName_bold.reads_opening ?_) hsize.reads
  exact reads_escape_tag hspelled hending rfl rfl isName_bold.apply_closing

/-- The line about the button means what it shows. -/
theorem reads_buttonLine {label : Text} {s : SurfaceState} (h : s.IsKept label)
    (hrest : IsApart rest) (hcloses : closesFirst rest = false) :
    Reads opened opened (s.buttonLine label) (s.plainFront label ++ s.color ++
      (if s.disabled then ("  (disabled)" : Text) else [])) rest := by
  have hmark : Reads opened opened
      (if s.disabled then ("  [red](disabled)[/red]" : Text) else [])
      (if s.disabled then ("  (disabled)" : Text) else []) rest := by
    split
    · have hspaces : IsInert "  " := by decide
      have hword : IsInert "(disabled)" := by decide
      rw [mark_eq, plainMark_eq]
      exact hspaces.reads.append (isName_red.reads_styled hword)
    · exact Reads.nil
  have hcolor : Reads opened opened s.color s.color
      ((if s.disabled then ("  [red](disabled)[/red]" : Text) else []) ++ rest) := by
    refine reads_unescaped 0 h.color (fun _ => ?_) ?_
    · split
      · rfl
      · exact hcloses
    · split
      · rintro s ⟨⟩
        decide
      · exact hrest
  rw [List.append_assoc]
  have hline : s.buttonLine label = s.front label ++
      (s.color ++ (if s.disabled then ("  [red](disabled)[/red]" : Text) else [])) :=
    List.append_assoc _ _ _
  rw [hline]
  exact (reads_front s h.label_spelled h.label_ending).append (hcolor.append hmark)

/-- Two spaces stand in front of every line. -/
theorem isInert_lineEntries (s : SurfaceState) : ∀ e ∈ s.lineEntries, IsInert e.1 := by
  have hspaces : IsInert "  " := by decide
  intro e he
  obtain ⟨t, -, rfl⟩ := List.mem_map.mp he
  exact hspaces

/-- A number stands in front of every address. -/
theorem isInert_imageEntries (s : SurfaceState) : ∀ e ∈ s.imageEntries, IsInert e.1 := by
  intro e he
  obtain ⟨⟨url, i⟩, -, rfl⟩ := List.mem_map.mp he
  exact IsInert.append (IsInert.append (by decide) (holdsOfNumerals_inert.ofNat _)) (by decide)

/-- The texts of the lines. -/
theorem map_lineEntries (s : SurfaceState) : s.lineEntries.map (·.2) = s.output := by
  rw [lineEntries, List.map_map]
  exact List.map_id s.output

/-- The texts of the addresses. -/
theorem map_imageEntries (s : SurfaceState) : s.imageEntries.map (·.2) = s.images := by
  rw [imageEntries, List.map_map]
  exact List.zipIdx_map_fst 0 s.images

/-- A rendered surface means what it shows. -/
theorem reads_markup {label : Text} {s : SurfaceState} (h : s.IsKept label) :
    Reads opened opened (s.markup label) (s.plain label) [] := by
  have hnothing : IsApart [] := by decide
  have hlines : s.outputPart = part "Output" (written s.lineEntries) := by
    rw [written, lineEntries, List.map_map]
    rfl
  have hnumbered : s.imagesPart = part "Images" (written s.imageEntries) := by
    rw [written, imageEntries, List.map_map]
    rfl
  have himages : Reads opened opened (below s.imagesPart)
      (below (plainPart "Images" (listed s.imageEntries))) [] := by
    rw [hnumbered]
    exact reads_part (by decide) s.isInert_imageEntries (s.map_imageEntries ▸ h.images) hnothing rfl
  have houtput : Reads opened opened (below s.outputPart)
      (below (plainPart "Output" (listed s.lineEntries))) (below s.imagesPart ++ []) := by
    rw [hlines]
    exact reads_part (by decide) s.isInert_lineEntries (s.map_lineEntries ▸ h.output)
      (isApart_below _ hnothing) (closesFirst_part _ _ rfl)
  unfold markup plain
  dsimp only
  rw [List.cons_append, List.cons_append, join_cons, join_cons, below_append, below_append]
  refine (reads_buttonLine h ?_ ?_).append (houtput.append himages)
  · rw [List.append_assoc]
    exact isApart_below _ (isApart_below _ hnothing)
  · rw [List.append_assoc]
    exact closesFirst_part _ _ (closesFirst_part _ _ rfl)

/-! ## Control characters -/

/-- A text is shown as it is when nothing in it is hidden. -/
theorem visible_eq_self_iff {t : Text} : visible t = t ↔ ∀ s ∈ t, isHidden s = false := by
  unfold visible
  rw [List.filter_eq_self]
  simp

/-- One text behind another is shown as it is when both are. -/
theorem visible_append {t u : Text} (ht : visible t = t) (hu : visible u = u) :
    visible (t ++ u) = t ++ u := by
  rw [visible, List.filter_append]
  exact congrArg₂ (· ++ ·) ht hu

/-- Lines are shown as they are below one another. -/
theorem visible_below {lines : List Text} (h : ∀ line ∈ lines, visible line = line) :
    visible (below lines) = below lines := by
  induction lines with
  | nil => rfl
  | cons line lines ih =>
    have hfeed : visible [.char '\n'] = [.char '\n'] := rfl
    have hline := visible_append hfeed (h line List.mem_cons_self)
    exact visible_append hline (ih fun line hline => h line (List.mem_cons_of_mem _ hline))

/-- A part is shown as it is when its heading, its marks and its texts are. -/
theorem visible_plainPart {heading : Text} {entries : List (Text × Text)}
    (hheading : visible (heading ++ ":") = heading ++ ":")
    (hmarks : ∀ e ∈ entries, visible e.1 = e.1) (htexts : ∀ e ∈ entries, visible e.2 = e.2) :
    visible (below (plainPart heading (listed entries))) =
      below (plainPart heading (listed entries)) := by
  refine visible_below fun line hline => ?_
  unfold plainPart at hline
  split at hline
  · cases hline
  · obtain rfl | hline := List.mem_cons.mp hline
    · rfl
    · obtain rfl | hline := List.mem_cons.mp hline
      · exact hheading
      · obtain ⟨e, he, rfl⟩ := List.mem_map.mp hline
        exact visible_append (hmarks e he) (htexts e he)

/-- Nothing of what a surface shows is hidden when nothing in its texts is. -/
theorem visible_plain {label : Text} {s : SurfaceState}
    (h : ∀ t ∈ label :: s.color :: (s.output ++ s.images), visible t = t) :
    visible (s.plain label) = s.plain label := by
  obtain ⟨hlabel, hcolor, htexts⟩ : visible label = label ∧ visible s.color = s.color ∧
      ∀ t ∈ s.output ++ s.images, visible t = t := by
    simpa only [List.forall_mem_cons] using h
  have hscale : visible (Decimal.fixed 1 s.scale) = Decimal.fixed 1 s.scale :=
    visible_eq_self_iff.mpr (holdsOfNumerals_visible.fixed s.scale)
  have hnumber (n : Nat) : visible (Text.ofNat n) = Text.ofNat n :=
    visible_eq_self_iff.mpr (holdsOfNumerals_visible.ofNat n)
  have hmark : visible (if s.disabled then ("  (disabled)" : Text) else []) =
      if s.disabled then ("  (disabled)" : Text) else [] := by
    split
    · rfl
    · rfl
  have hlines : visible (below (plainPart "Output" (listed s.lineEntries))) =
      below (plainPart "Output" (listed s.lineEntries)) := by
    refine visible_plainPart rfl (fun e he => ?_) fun e he => ?_
    · obtain ⟨t, -, rfl⟩ := List.mem_map.mp he
      rfl
    · obtain ⟨t, ht, rfl⟩ := List.mem_map.mp he
      exact htexts t (List.mem_append_left _ ht)
  have himages : visible (below (plainPart "Images" (listed s.imageEntries))) =
      below (plainPart "Images" (listed s.imageEntries)) := by
    refine visible_plainPart rfl (fun e he => ?_) fun e he => ?_
    · obtain ⟨⟨url, i⟩, -, rfl⟩ := List.mem_map.mp he
      exact visible_append (visible_append rfl (hnumber _)) rfl
    · have he' : e.2 ∈ s.images := s.map_imageEntries ▸ List.mem_map_of_mem he
      exact htexts e.2 (List.mem_append_right _ he')
  unfold plain
  dsimp only
  rw [List.cons_append, join_cons, below_append]
  refine visible_append ?_ (visible_append hlines himages)
  exact visible_append (visible_append (visible_append (visible_append (visible_append hlabel rfl)
    hscale) rfl) hcolor) hmark

end SurfaceState

end PushButton
