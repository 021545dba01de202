import Mathlib.Data.List.Infix
import PushButton.Proofs.Yaml.Cursor
import PushButton.Proofs.Yaml.Onward
import PushButton.Proofs.Yaml.Types

/-!
# Tokens are read or refused

Every step of reading a text goes on in it or finds a fault of the data. The one exception are
escapes for numbers that are too large for any code point; a text without one of these has tokens
that end at a fault of the data, where they end early.
-/

namespace PushButton

namespace Yaml

open Cursor

/-- The number of the escape with which a text begins, where it begins with one in digits. -/
def escapedNumber? : Text → Option Nat
  | .char '\\' :: e :: rest => (escapeDigits? e).bind fun n => hexNumber? n rest
  | _ => none

/-- An escape in the text has a number that is far beyond the last code point. -/
def hasFarEscape (t : Text) : Bool :=
  t.tails.any fun u => (escapedNumber? u).any fun n => decide (0x80000000 ≤ n)

/-- A text without such an escape has none in its ends. -/
theorem lt_of_escapedNumber {t u : Text} {n : Nat} (ht : hasFarEscape t = false) (hu : u <:+ t)
    (hn : escapedNumber? u = some n) : n < 0x80000000 := by
  by_contra hfar
  have hany : hasFarEscape t = true :=
    List.any_eq_true.mpr ⟨u, (List.mem_tails u t).mpr hu, by simp [hn]; omega⟩
  rw [ht] at hany
  cases hany

/-- What is left of a text without such an escape has none. -/
theorem hasFarEscape_of_isBehind {c' c : Cursor} (h : c'.IsBehind c)
    (hc : hasFarEscape c.rest = false) : hasFarEscape c'.rest = false := by
  unfold hasFarEscape at hc ⊢
  rw [List.any_eq_false] at hc ⊢
  exact fun u hu => hc u ((List.mem_tails u _).mpr (((List.mem_tails u _).mp hu).trans h))

/-- A step of reading from a place goes on in the document or finds a fault of it. -/
abbrev Proceeds {α : Type} (place : α → Cursor) (c : Cursor) (r : Except Flaw α) : Prop :=
  Gives (fun f => f.isInvalid = true) (fun x => (place x).IsBehind c) r

/-- A step from a later place is one from an earlier place. -/
theorem Proceeds.from {α : Type} {place : α → Cursor} {c' c : Cursor} {r : Except Flaw α}
    (h : Proceeds place c' r) (hc : c'.IsBehind c) : Proceeds place c r :=
  Gives.imp h fun _ hx => hx.trans hc

/-! ## Scalars -/

/-- A digit of a header is read or refused. -/
theorem fair_increment (c : Cursor) : Fair (increment? c) := by
  unfold increment?
  split
  · trivial
  · rfl
  · trivial

/-- Behind the header of a block. -/
theorem proceeds_blockHeader (c : Cursor) : Proceeds Prod.snd c (blockHeader c) := by
  have hend (header : BlockHeader) {c' : Cursor} (hc' : c'.IsBehind c) :
      Proceeds Prod.snd c
        (if c'.seesSpaceOrBreak = true then .ok (header, c') else .error .malformed) :=
    Gives.ite (fun _ => hc') fun _ => rfl
  have hstep := c.isBehind_step
  have hsteps := c.step.isBehind_step.trans hstep
  unfold blockHeader
  dsimp only
  split
  · refine (fair_increment _).bind fun increment _ => hend _ ?_
    dsimp only
    split
    · exact hsteps
    · exact hstep
  · refine (fair_increment c).bind fun increment _ => ?_
    split
    · exact hend _ (.refl c)
    · split
      · exact hend _ hsteps
      · exact hend _ hstep

/-- Behind the rest of a line. -/
theorem proceeds_restOfLine (c : Cursor) : Proceeds id c (restOfLine c) := by
  have hc := (isBehind_skipComment _).trans c.isBehind_skipSpaces
  unfold restOfLine
  dsimp only
  refine Gives.ite (fun _ => ?_) fun _ => rfl
  cases hbreak : c.skipSpaces.skipComment.lineBreak? with
  | none => exact hc
  | some next => exact (isBehind_lineBreak hbreak).trans hc

/-- Behind a block. -/
theorem proceeds_blockScalar (isFolded : Bool) (depth : Nat) (c : Cursor) :
    Proceeds Prod.snd c (blockScalar isFolded depth c) := by
  unfold blockScalar
  have hheader := (proceeds_blockHeader c.step).from c.isBehind_step
  refine hheader.bind fun ⟨header, start⟩ hstart => ?_
  refine ((proceeds_restOfLine start).from hstart).bind fun c' hc' => ?_
  have hfirst := (isBehind_blockStart header (max depth 1) c').trans hc'
  have hlast := (isBehind_blockBody isFolded (blockStart header (max depth 1) c').1
    (blockStart header (max depth 1) c').2.1 _).trans hfirst
  dsimp only
  split
  · exact hlast
  · exact hlast
  · exact hlast

/-- Behind the line endings in a quoted scalar. -/
theorem proceeds_quotedBreaks (fuel : Nat) (c : Cursor) :
    Proceeds Prod.snd c (quotedBreaks fuel c) := by
  induction fuel generalizing c with
  | zero => exact IsBehind.refl c
  | succ fuel ih =>
    have hblanks := c.isBehind_skipWhile fun s => s = .char ' ' || s = .char '\t'
    unfold quotedBreaks
    refine Gives.ite (fun _ => rfl) fun _ => ?_
    dsimp only
    split
    · exact hblanks
    · rename_i hbreak
      have hnext := (isBehind_lineBreak hbreak).trans hblanks
      exact ((ih _).from hnext).map fun x hx => hx

/-- A number in digits behind a backslash is not far beyond the last code point. -/
theorem lt_of_hexNumber {c : Cursor} {e : Symbol} {n code : Nat} (hc : hasFarEscape c.rest = false)
    (hnext : c.next = some (.char '\\')) (he : c.step.next = some e)
    (hn : escapeDigits? e = some n) (hcode : hexNumber? n c.step.step.rest = some code) :
    code < 0x80000000 := by
  obtain ⟨rest, hrest⟩ := List.head?_eq_some_iff.mp hnext
  obtain ⟨after, hafter⟩ := List.head?_eq_some_iff.mp he
  rw [step_rest hrest] at hafter
  rw [step_rest ((step_rest hrest).trans hafter)] at hcode
  refine lt_of_escapedNumber hc (List.suffix_refl c.rest) ?_
  rw [hrest, hafter]
  change (escapeDigits? e).bind (fun n => hexNumber? n after) = some code
  rw [hn]
  exact hcode

/-- A number that is not far beyond the last code point is a fault of the data at worst. -/
theorem isInvalid_codePoint {code : Nat} (hcode : code < 0x80000000) :
    (Flaw.conversion (.codePoint code)).isInvalid = true := by
  unfold Flaw.isInvalid Conversion.kind
  dsimp only
  rw [if_pos hcode]
  rfl

/-- Behind the rest of a quoted scalar. The induction is on the fuel; every way to go on reads
the rest behind some symbols. -/
theorem proceeds_quotedFrom (double : Bool) (fuel : Nat) {c : Cursor}
    (hc : hasFarEscape c.rest = false) : Proceeds Prod.snd c (quotedFrom double fuel c) := by
  induction fuel generalizing c with
  | zero => rfl
  | succ fuel ih =>
    have honward (t : Text) {c' : Cursor} (hc' : c'.IsBehind c) :
        Proceeds Prod.snd c ((quotedFrom double fuel c').map fun x => (t ++ x.1, x.2)) :=
      ((ih (hasFarEscape_of_isBehind hc' hc)).from hc').map fun x hx => hx
    have hstep := c.isBehind_step
    unfold quotedFrom
    dsimp only
    cases hnext : c.next with
    | none => rfl
    | some s =>
      dsimp only
      refine Gives.ite (fun _ => ?_) fun _ => Gives.ite (fun hescape => ?_) fun _ => ?_
      · exact Gives.ite (fun _ => honward _ (c.isBehind_skip 2)) fun _ => hstep
      · -- an escape: of one letter, of digits, or of a line ending
        obtain ⟨-, hbackslash⟩ := Bool.and_eq_true_iff.mp hescape
        rw [of_decide_eq_true hbackslash] at hnext
        have hsecond := c.step.isBehind_step.trans hstep
        cases he : c.step.next with
        | none => rfl
        | some e =>
          dsimp only
          split
          · exact honward _ hsecond
          · rename_i n _ hdigits
            split
            · rfl
            · rename_i code hcode
              refine Gives.ite (fun _ => honward _ ?_) fun _ => ?_
              · exact (c.step.step.isBehind_skip n).trans hsecond
              · exact isInvalid_codePoint (lt_of_hexNumber hc hnext he hdigits hcode)
          · split
            · rfl
            · rename_i hbreak
              have hline := (isBehind_lineBreak hbreak).trans hstep
              exact ((proceeds_quotedBreaks _ _).from hline).bind fun x hx => honward _ hx
      · refine Gives.ite (fun _ => ?_) fun _ => honward _ hstep
        have hblanks := c.isBehind_skipWhile fun s => s = .char ' ' || s = .char '\t'
        unfold Cursor.takeWhile
        dsimp only
        split
        · exact honward _ hblanks
        · rename_i hbreak
          have hline := (isBehind_lineBreak hbreak).trans hblanks
          exact ((proceeds_quotedBreaks _ _).from hline).bind fun x hx => honward _ hx

/-- Behind a quoted scalar. -/
theorem proceeds_quotedScalar (double : Bool) {c : Cursor} (hc : hasFarEscape c.rest = false) :
    Proceeds Prod.snd c (quotedScalar double c) :=
  (proceeds_quotedFrom double _ (hasFarEscape_of_isBehind c.isBehind_step hc)).from c.isBehind_step

/-! ## Directives, names and tags -/

namespace Token

/-- Behind a name. -/
theorem proceeds_name (c : Cursor) : Proceeds Prod.snd c (name c) :=
  Gives.ite (fun _ => rfl) fun _ => c.isBehind_skipWhile _

/-- Behind the name of an anchor or alias. -/
theorem proceeds_anchorName (c : Cursor) : Proceeds Prod.snd c (anchorName c) :=
  (proceeds_name c).bind fun _ hx => Gives.ite (fun _ => hx) fun _ => rfl

/-- Behind a number of a version. -/
theorem proceeds_versionNumber (c : Cursor) : Proceeds Prod.snd c (versionNumber c) :=
  Gives.ite (fun _ => rfl) fun _ => c.isBehind_skipWhile _

/-- Behind the handle of a tag. -/
theorem proceeds_tagHandle (c : Cursor) : Proceeds Prod.snd c (tagHandle c) := by
  have hword := (c.step.isBehind_skipWhile Symbol.isWordPart).trans c.isBehind_step
  refine Gives.ite (fun _ => rfl) fun _ => Gives.ite (fun _ => c.isBehind_step) fun _ => ?_
  exact Gives.ite (fun _ => (isBehind_step _).trans hword) fun _ => rfl

/-- Behind bytes that are written with percent signs. -/
theorem proceeds_tagBytes (fuel : Nat) (c : Cursor) : Proceeds Prod.snd c (tagBytes fuel c) := by
  induction fuel generalizing c with
  | zero => exact IsBehind.refl c
  | succ fuel ih =>
    unfold tagBytes
    refine Gives.ite (fun _ => IsBehind.refl c) fun _ => ?_
    split
    · rfl
    · exact ((ih (c.skip 3)).from (c.isBehind_skip 3)).map fun _ hx => hx

/-- Behind the parts of a tag. -/
theorem proceeds_tagParts (fuel : Nat) (c : Cursor) : Proceeds Prod.snd c (tagParts fuel c) := by
  induction fuel generalizing c with
  | zero => exact IsBehind.refl c
  | succ fuel ih =>
    have hbytes := proceeds_tagBytes (c.rest.length + 1) c
    unfold tagParts
    refine Gives.ite (fun _ => ?_) fun _ => Gives.ite (fun _ => ?_) fun _ => IsBehind.refl c
    · split
      · rename_i hflaw
        rwa [hflaw] at hbytes
      · rename_i bytes next hread
        rw [hread] at hbytes
        split
        · rfl
        · exact ((ih next).from hbytes).map fun _ hx => hx
    · exact ((ih c.step).from c.isBehind_step).map fun _ hx => hx

/-- Behind the text of a tag. -/
theorem proceeds_tagText (c : Cursor) : Proceeds Prod.snd c (tagText c) :=
  Gives.ite (fun _ => proceeds_tagParts _ c) fun _ => rfl

/-- Behind a tag. -/
theorem proceeds_readTag (c : Cursor) : Proceeds Prod.snd c (readTag c) := by
  have hend (t : Token) {c' : Cursor} (hc' : c'.IsBehind c) :
      Proceeds Prod.snd c (if c'.seesSpaceOrBreak = true then .ok (t, c') else .error .malformed) :=
    Gives.ite (fun _ => hc') fun _ => rfl
  unfold readTag
  dsimp only
  refine Gives.ite (fun _ => ?_) fun _ => Gives.ite (fun _ => ?_) fun _ =>
    Gives.ite (fun _ => ?_) fun _ => ?_
  · refine ((proceeds_tagText _).from (c.isBehind_skip 2)).bind fun x hx => ?_
    exact Gives.ite (fun _ => hend _ ((isBehind_step _).trans hx)) fun _ => rfl
  · exact hend _ c.isBehind_step
  · refine (proceeds_tagHandle c).bind fun x hx => ?_
    exact ((proceeds_tagText _).from hx).bind fun y hy => hend _ hy
  · exact ((proceeds_tagText _).from c.isBehind_step).bind fun y hy => hend _ hy

/-- Behind a directive. -/
theorem proceeds_readDirective (c : Cursor) : Proceeds Prod.snd c (readDirective c) := by
  have hend (d : Directive) {c' : Cursor} (hc' : c'.IsBehind c) :
      Proceeds Prod.snd c ((restOfLine c').bind fun c => pure (d, c)) :=
    ((proceeds_restOfLine c').from hc').bind fun _ hx => hx
  unfold readDirective
  refine (proceeds_name c).bind fun ⟨n, behind⟩ hname => ?_
  dsimp only
  refine Gives.ite (fun _ => rfl) fun _ => Gives.ite (fun _ => ?_) fun _ =>
    Gives.ite (fun _ => ?_) fun _ => ?_
  · have hspaces := behind.isBehind_skipSpaces.trans hname
    refine ((proceeds_versionNumber _).from hspaces).bind fun x hx => ?_
    refine Gives.ite (fun _ => rfl) fun _ => ?_
    have hpoint := (isBehind_step x.2).trans hx
    refine ((proceeds_versionNumber _).from hpoint).bind fun y hy => ?_
    exact Gives.ite (fun _ => hend _ hy) fun _ => rfl
  · have hspaces := behind.isBehind_skipSpaces.trans hname
    refine ((proceeds_tagHandle _).from hspaces).bind fun x hx => ?_
    refine Gives.ite (fun _ => rfl) fun _ => ?_
    have hstart := (isBehind_skipSpaces x.2).trans hx
    refine ((proceeds_tagText _).from hstart).bind fun y hy => ?_
    exact Gives.ite (fun _ => hend _ hy) fun _ => rfl
  · exact hend _ ((behind.isBehind_skipWhile _).trans hname)

end Token

/-! ## The scanner -/

namespace Scanner

/-- A step of the scanner goes on in the document or finds a fault of it. -/
abbrev GoesOn (s : Scanner) (r : Except Flaw Scanner) : Prop := Proceeds cursor s.cursor r

variable {s s' : Scanner}

/-- A step of a later scanner is one of an earlier scanner. -/
theorem GoesOn.from {r : Except Flaw Scanner} (h : s'.GoesOn r)
    (hs : s'.cursor.IsBehind s.cursor) : s.GoesOn r := Proceeds.from h hs

/-- A possible key is dropped where it stands, or refused. -/
theorem fair_dropStaleKey (c : Cursor) (k : Option PossibleKey) : Fair (dropStaleKey c k) := by
  cases k with
  | none => trivial
  | some k => exact Gives.ite (fun _ => Gives.ite (fun _ => rfl) fun _ => trivial) fun _ => trivial

/-- Stale keys are dropped where the scanner stands. -/
theorem goesOn_dropStale (s : Scanner) : s.GoesOn s.dropStale := by
  refine (fair_dropStaleKey _ _).bind fun _ _ => ?_
  exact (Gives.mapM fun k _ => fair_dropStaleKey s.cursor k).bind fun _ _ => IsBehind.refl _

/-- A key is given up where the scanner stands. -/
theorem goesOn_giveUpKey (s : Scanner) : s.GoesOn s.giveUpKey :=
  Gives.ite (fun _ => rfl) fun _ => IsBehind.refl _

/-- A key is remembered where the scanner stands. -/
theorem goesOn_rememberKey (s : Scanner) : s.GoesOn s.rememberKey := by
  refine Gives.ite (fun _ => IsBehind.refl _) fun _ => ?_
  exact (goesOn_giveUpKey s).bind fun _ hs' => hs'

/-- Blocks are closed where the scanner stands. -/
theorem cursor_unwind (depth : Nat) (s : Scanner) (outer : List Nat) :
    (unwind depth s outer).cursor = s.cursor := by
  induction outer generalizing s with
  | nil => rfl
  | cons d rest ih =>
    unfold unwind
    split
    · exact ih _
    · rfl

/-- Blocks are closed where the scanner stands. -/
theorem cursor_closeBlocks (s : Scanner) (depth : Nat) :
    (s.closeBlocks depth).cursor = s.cursor := by
  unfold closeBlocks
  split
  · rfl
  · exact cursor_unwind depth s _

/-- Behind what stands in front of a token. -/
theorem isBehind_skipToToken (fuel : Nat) (s : Scanner) :
    (skipToToken fuel s).cursor.IsBehind s.cursor := by
  induction fuel generalizing s with
  | zero => rfl
  | succ fuel ih =>
    have hcomment := (isBehind_skipComment _).trans s.cursor.isBehind_skipSpaces
    unfold skipToToken
    dsimp only
    split
    · exact hcomment
    · rename_i hbreak
      exact (ih _).trans ((isBehind_lineBreak hbreak).trans hcomment)

/-- Behind a directive or the mark of a document. -/
theorem goesOn_documentPart (t : Token) {c : Cursor} (hc : c.IsBehind s.cursor) :
    s.GoesOn (s.documentPart t c) := by
  have hgiven := goesOn_giveUpKey (s.closeBlocks 0)
  exact Gives.bind hgiven fun _ _ => hc

/-- Behind an opening bracket. -/
theorem goesOn_openFlow (t : Token) (s : Scanner) : s.GoesOn (s.openFlow t) :=
  (goesOn_rememberKey s).bind fun s' hs' => (isBehind_step s'.cursor).trans hs'

/-- Behind a closing bracket. -/
theorem goesOn_closeFlow (t : Token) (s : Scanner) : s.GoesOn (s.closeFlow t) := by
  refine (goesOn_giveUpKey s).bind fun s' hs' => ?_
  split
  · rfl
  · exact (isBehind_step s'.cursor).trans hs'

/-- Behind a comma. -/
theorem goesOn_comma (s : Scanner) : s.GoesOn s.comma :=
  (goesOn_giveUpKey s).bind fun s' hs' => (isBehind_step s'.cursor).trans hs'

/-- A block begins where the scanner stands. -/
theorem goesOn_beginBlock (t : Token) (s : Scanner) : s.GoesOn (s.beginBlock t) :=
  Gives.ite (fun _ => IsBehind.refl _) fun _ => Gives.ite (fun _ => rfl) fun _ =>
    Gives.ite (fun _ => IsBehind.refl _) fun _ => IsBehind.refl _

/-- Behind a dash. -/
theorem goesOn_entry (s : Scanner) : s.GoesOn s.entry :=
  (goesOn_beginBlock _ s).bind fun s' hs' =>
    ((goesOn_giveUpKey s').from hs').bind fun s'' hs'' => (isBehind_step s''.cursor).trans hs''

/-- Behind a question mark. -/
theorem goesOn_key (s : Scanner) : s.GoesOn s.key :=
  (goesOn_beginBlock _ s).bind fun s' hs' =>
    ((goesOn_giveUpKey s').from hs').bind fun s'' hs'' => (isBehind_step s''.cursor).trans hs''

/-- Behind a colon. -/
theorem goesOn_value (s : Scanner) : s.GoesOn s.value := by
  unfold value
  split
  · dsimp only
    split
    · exact isBehind_step s.cursor
    · exact isBehind_step s.cursor
  · refine (goesOn_beginBlock _ s).bind fun s' hs' => ?_
    have hgiven := (goesOn_giveUpKey s').from hs'
    exact hgiven.bind fun s'' hs'' => (isBehind_step s''.cursor).trans hs''

/-- Behind a token that may be a key. -/
theorem goesOn_node {read : Cursor → Except Flaw (Token × Cursor)}
    (hread : ∀ c, c.IsBehind s.cursor → Proceeds Prod.snd c (read c)) : s.GoesOn (s.node read) :=
  (goesOn_rememberKey s).bind fun s' hs' => ((hread s'.cursor hs').from hs').bind fun _ hx => hx

/-- Behind a plain scalar. -/
theorem goesOn_plain (s : Scanner) : s.GoesOn s.plain := by
  refine (goesOn_rememberKey s).bind fun s' hs' => ?_
  have hplain := isBehind_plainFrom s'.inFlow s'.depth (s'.cursor.rest.length + 1) s'.cursor false
  exact hplain.trans hs'

/-- Behind a block. -/
theorem goesOn_block (isFolded : Bool) (s : Scanner) : s.GoesOn (s.block isFolded) :=
  (goesOn_giveUpKey s).bind fun s' hs' =>
    ((proceeds_blockScalar isFolded _ s'.cursor).from hs').bind fun _ hx => hx

/-- Behind a name. -/
theorem proceeds_named (make : Text → Token) (c : Cursor) : Proceeds Prod.snd c (named make c) :=
  ((Token.proceeds_anchorName c.step).from c.isBehind_step).map fun _ hx => hx

/-- Behind a token, where the text has no escape for a number that is too large. -/
theorem goesOn_fetch (x : Symbol) (hs : hasFarEscape s.cursor.rest = false) :
    s.GoesOn (s.fetch x) := by
  have hquoted (double : Bool) (c : Cursor) (hc : c.IsBehind s.cursor) :
      Proceeds Prod.snd c
        ((quotedScalar double c).map fun x => (Token.scalar false x.1, x.2)) :=
    (proceeds_quotedScalar double (hasFarEscape_of_isBehind hc hs)).map fun _ hx => hx
  unfold fetch
  dsimp only
  repeat' refine Gives.ite (fun _ => ?_) fun _ => ?_
  · exact ((Token.proceeds_readDirective _).from (isBehind_step _)).bind fun _ hx =>
      goesOn_documentPart _ hx
  · exact goesOn_documentPart _ (isBehind_skip _ 3)
  · exact goesOn_documentPart _ (isBehind_skip _ 3)
  · exact goesOn_openFlow _ s
  · exact goesOn_openFlow _ s
  · exact goesOn_closeFlow _ s
  · exact goesOn_closeFlow _ s
  · exact goesOn_comma s
  · exact goesOn_entry s
  · exact goesOn_key s
  · exact goesOn_value s
  · exact goesOn_node fun c _ => proceeds_named _ c
  · exact goesOn_node fun c _ => proceeds_named _ c
  · exact goesOn_node fun c _ => Token.proceeds_readTag c
  · exact goesOn_block false s
  · exact goesOn_block true s
  · exact goesOn_node (hquoted false)
  · exact goesOn_node (hquoted true)
  · exact goesOn_plain s
  · rfl

/-- The step from the front of a token to behind it, and whether it was the last one. -/
def advance (s : Scanner) : Except Flaw (Scanner × Bool) := do
  let s ← s.dropStale
  let s := s.closeBlocks (s.cursor.column + 1)
  match s.cursor.next with
  | none => do
    let s ← (s.closeBlocks 0).giveUpKey
    pure (s.emit .finish, true)
  | some x => do pure (← s.fetch x, false)

/-- The tokens from a place on are found step by step. -/
theorem run_succ (fuel : Nat) (s : Scanner) : run (fuel + 1) s =
    match (skipToToken (s.cursor.rest.length + 1) s).advance with
    | .error e => ((skipToToken (s.cursor.rest.length + 1) s).settled, some e)
    | .ok (s, true) => (s.tokens.reverse, none)
    | .ok (s, false) => run fuel s := rfl

/-- A step goes on in a text without an escape for a number that is too large, or it finds a fault
of the data. -/
theorem proceeds_advance (hs : hasFarEscape s.cursor.rest = false) :
    Proceeds (fun x : Scanner × Bool => x.1.cursor) s.cursor s.advance := by
  refine (goesOn_dropStale s).bind fun s₁ hs₁ => ?_
  dsimp only
  -- blocks that end here are closed without moving on
  have hclosed := cursor_closeBlocks s₁ (s₁.cursor.column + 1)
  generalize s₁.closeBlocks (s₁.cursor.column + 1) = s₂ at hclosed ⊢
  rw [← hclosed] at hs₁
  split
  · have hgiven := goesOn_giveUpKey (s₂.closeBlocks 0)
    rw [GoesOn, cursor_closeBlocks] at hgiven
    exact Gives.bind hgiven fun s₃ hs₃ => hs₃.trans hs₁
  · rename_i x hx
    have hfetch := goesOn_fetch x (hasFarEscape_of_isBehind hs₁ hs)
    exact Gives.bind hfetch fun s₃ hs₃ => hs₃.trans hs₁

/-- The tokens end at a fault of the data, where they end early. The induction is on the fuel. -/
theorem isInvalid_of_run {fuel : Nat} {s : Scanner} {f : Flaw}
    (hs : hasFarEscape s.cursor.rest = false) (h : (run fuel s).2 = some f) :
    f.isInvalid = true := by
  induction fuel generalizing s with
  | zero =>
    cases h
    rfl
  | succ fuel ih =>
    have hskipped := isBehind_skipToToken (s.cursor.rest.length + 1) s
    have hfree := hasFarEscape_of_isBehind hskipped hs
    have hadvance := proceeds_advance hfree
    rw [run_succ] at h
    split at h
    · rename_i hflaw
      cases h
      rwa [hflaw] at hadvance
    · cases h
    · rename_i s' hread
      rw [hread] at hadvance
      exact ih (hasFarEscape_of_isBehind hadvance hfree) h

end Scanner

/-- The tokens of a text without an escape for a number that is too large end at a fault of the
data, where they end early. -/
theorem isInvalid_of_tokens {t : Text} {f : Flaw} (ht : hasFarEscape t = false)
    (h : (tokens t).2 = some f) : f.isInvalid = true := by
  unfold tokens at h
  dsimp only at h
  refine Scanner.isInvalid_of_run ?_ h
  split
  · exact hasFarEscape_of_isBehind (isBehind_step _) ht
  · exact ht

end Yaml

end PushButton
