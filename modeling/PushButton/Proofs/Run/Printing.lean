import PushButton.Cli.Press
import PushButton.Proofs.Run.Freshness
import PushButton.Proofs.Text.Plain

/-!
# Every line is printed once

The observer that streams the lines of a surface knows how many lines there were when it was last
told about them. Since it is told about every change of the lines, these are the lines that it has
printed, and the others are new: the line that was just put out, or none when the lines were taken
away. So it prints every line once, as long as the console can print it and nobody fails.
-/

namespace PushButton

variable {σ : Type}

/-! ## What an observer prints -/

namespace Occurrence

/-- The texts that the observer with a name prints: they follow the notices to it. It is given
whether it was told last. -/
def printedBy (name : Text) (told : Bool) : List Occurrence → List Text
  | [] => []
  | .notified l _ _ _ :: os => printedBy name (l = name) os
  | .printed t :: os => if told then t :: printedBy name told os else printedBy name told os
  | .logged _ :: os | .slept _ :: os | .asked _ :: os | .called _ :: os => printedBy name told os

/-- In a part of what happens, the observer with a name prints some texts, whoever was told last. -/
def Prints (name : Text) (ts : List Text) (os : List Occurrence) : Prop :=
  ∀ told more, ∃ told', printedBy name told (os ++ more) = ts ++ printedBy name told' more

variable {name : Text} {ts ts' : List Text} {os os' : List Occurrence}

/-- Nothing is printed where nothing happens. -/
theorem Prints.nil : Prints name [] [] := fun told _ => ⟨told, rfl⟩

/-- Texts are printed, and then others. -/
theorem Prints.append (h : Prints name ts os) (h' : Prints name ts' os') :
    Prints name (ts ++ ts') (os ++ os') := by
  intro told more
  obtain ⟨told', hfirst⟩ := h told (os' ++ more)
  obtain ⟨told'', hsecond⟩ := h' told' more
  refine ⟨told'', ?_⟩
  rw [List.append_assoc, hfirst, hsecond, List.append_assoc]

/-- These are the texts. -/
theorem Prints.printedBy_eq (h : Prints name ts os) : printedBy name false os = ts := by
  obtain ⟨told', hos⟩ := h false []
  rwa [List.append_nil, printedBy, List.append_nil] at hos

/-- Texts that are printed in a row are printed by the observer that was told last. -/
theorem printedBy_map_printed (told : Bool) (ts : List Text) (more : List Occurrence) :
    printedBy name told (ts.map .printed ++ more) =
      (if told then ts else []) ++ printedBy name told more := by
  induction ts with
  | nil =>
    cases told with
    | false => rfl
    | true => rfl
  | cons t ts ih =>
    rw [List.map_cons, List.cons_append, printedBy, ih]
    cases told with
    | false => rfl
    | true => rfl

/-- An observer that is told prints its texts. -/
theorem prints_notice (l : Listener) (field : Field) (s : SurfaceState) (past : List Occurrence) :
    Prints l.name (l.react field s past).prints (l.notice field s past) := by
  intro told more
  refine ⟨true, ?_⟩
  unfold Listener.notice
  rw [List.cons_append, printedBy, printedBy_map_printed]
  simp

/-- An observer prints nothing when another one is told. -/
theorem prints_notice_other {l : Listener} (hname : l.name ≠ name) (field : Field)
    (s : SurfaceState) (past : List Occurrence) : Prints name [] (l.notice field s past) := by
  intro told more
  refine ⟨false, ?_⟩
  unfold Listener.notice
  rw [List.cons_append, printedBy, printedBy_map_printed]
  simp [hname]

end Occurrence

/-! ## The observer that streams the lines -/

namespace Streaming

/-- The observer that prints every line once, on a console. -/
abbrev printer : Listener := listener.onConsole

/-- How many lines were printed does not change as long as the observer is told nothing. -/
theorem printedLines_append {os : List Occurrence} (past : List Occurrence)
    (hos : ∀ o ∈ os, o.noticeTo? name = none) : printedLines (os ++ past) = printedLines past := by
  induction os with
  | nil => rfl
  | cons o os ih =>
    have hrest := ih fun o' ho' => hos o' (List.mem_cons_of_mem o ho')
    have ho := hos o List.mem_cons_self
    cases o with
    | notified l field lines images =>
      have hname : l ≠ name := by
        rintro rfl
        simp [Occurrence.noticeTo?] at ho
      cases field with
      | output => exact (if_neg hname).trans hrest
      | images | scale | color | disabled => exact hrest
    | logged | slept | asked | called | printed => exact hrest

/-- A plain line can be printed. -/
theorem unprintable?_shown {line : Text} (hline : line.IsPlain) :
    (shown line).unprintable? = none := by
  have hvisible : (Markup.visible line).IsPlain := fun s hs => hline s ((List.mem_filter.mp hs).1)
  have hplain : (shown line).IsPlain := by simp [shown, hvisible]
  obtain ⟨bytes, hencode, -⟩ := Utf8.exists_encode_decode hplain
  unfold Text.unprintable?
  rw [hencode]

/-- The lines that were not printed. -/
def unprinted (s : SurfaceState) (past : List Occurrence) : List Text :=
  s.output.drop (min (printedLines past) s.output.length)

/-- When the observer is told about the lines and can print those that it has not printed, it does
so. -/
theorem react_printer_output {s : SurfaceState} {past : List Occurrence}
    (hplain : ∀ line ∈ unprinted s past, line.IsPlain) :
    printer.react .output s past = { prints := (unprinted s past).map shown } := by
  have hprintable : ((unprinted s past).map shown).findSome? Text.unprintable? = none := by
    rw [List.findSome?_eq_none_iff]
    intro t ht
    obtain ⟨line, hline, rfl⟩ := List.mem_map.mp ht
    exact unprintable?_shown (hplain line hline)
  change Reaction.onConsole { prints := (unprinted s past).map shown } = _
  unfold Reaction.onConsole
  rw [hprintable]

/-- When the observer is told about something else, it does nothing. -/
theorem react_printer_other {field : Field} (hfield : field ≠ .output) (s : SurfaceState)
    (past : List Occurrence) : printer.react field s past = {} := by
  cases field with
  | output => exact (hfield rfl).elim
  | images | scale | color | disabled => rfl

/-- The number of lines that are printed when the observer was told. -/
def printedWith (field : Field) (s : SurfaceState) (past : List Occurrence) : Nat :=
  if field = .output then s.output.length else printedLines past

/-- The number of lines that are printed is kept in what happens when the observer is told. -/
theorem printedLines_notice (field : Field) (s : SurfaceState) (past : List Occurrence) :
    printedLines ((printer.notice field s past).reverse ++ past) = printedWith field s past := by
  have hprints (ts : List Text) : ∀ o ∈ (ts.map Occurrence.printed).reverse,
      o.noticeTo? name = none := by
    intro o ho
    obtain ⟨t, -, rfl⟩ := List.mem_map.mp (List.mem_reverse.mp ho)
    rfl
  unfold Listener.notice
  rw [List.reverse_cons, List.append_assoc, printedLines_append _ (hprints _)]
  cases field with
  | output => exact if_pos rfl
  | images | scale | color | disabled => rfl

end Streaming

open Streaming (printer printedLines unprinted shown)

/-! ## Announcing parts of the surface -/

namespace World

/-- The lines are printed by an observer that has subscribed once and stays; no other observer
fails. -/
structure IsPrinted (w : World σ) : Prop where
  /-- The observer stays. -/
  watches : w.Watches printer
  /-- No other observer fails. -/
  calm : ∀ l ∈ w.listeners, l.name ≠ Streaming.name → l.NeverFails

/-- Some things have happened, among which the observer has printed some texts; so many lines are
printed now, and the surface is as it was. -/
structure Tells (ts : List Text) (count : Nat) (w w' : World σ) : Prop where
  /-- The lines are still printed. -/
  printed : w'.IsPrinted
  /-- The surface is as it was. -/
  surface : w'.surface = w.surface
  /-- The texts were printed. -/
  past : ∃ os, w'.past = os.reverse ++ w.past ∧ Occurrence.Prints Streaming.name ts os
  /-- So many lines are printed. -/
  count : printedLines w'.past = count

variable {ts ts' : List Text} {n n' : Nat} {w w' w'' : World σ}

/-- Nothing has happened. -/
theorem IsPrinted.tells_nothing (hw : w.IsPrinted) : w.Tells [] (printedLines w.past) w :=
  ⟨hw, rfl, ⟨[], rfl, .nil⟩, rfl⟩

/-- Texts are printed, and then others. -/
theorem Tells.trans (h : w.Tells ts n w') (h' : w'.Tells ts' n' w'') :
    w.Tells (ts ++ ts') n' w'' := by
  obtain ⟨os, hpast, hprints⟩ := h.past
  obtain ⟨os', hpast', hprints'⟩ := h'.past
  refine ⟨h'.printed, h'.surface.trans h.surface, ⟨os ++ os', ?_, hprints.append hprints'⟩,
    h'.count⟩
  rw [hpast', hpast, List.reverse_append, List.append_assoc]

/-- The lines are printed when subscriptions of other names end. -/
theorem IsPrinted.without (hw : w.IsPrinted) {names : List Text} (hnames : Streaming.name ∉ names) :
    IsPrinted { w with listeners := Act.without names w.listeners } :=
  ⟨hw.watches.without hnames, fun l hl => hw.calm l ((Act.without_sublist _ _).subset hl)⟩

end World

namespace Act

variable {w : World σ}

/-- Another observer is told. -/
theorem exists_tells_tell_other (field : Field) {l : Listener} (hname : l.name ≠ Streaming.name)
    (hspares : l.Spares Streaming.name) (hl : l.NeverFails) (hw : w.IsPrinted) :
    ∃ w', (tell field l).exec w = (.ok ⟨⟩, w') ∧ w.Tells [] (printedLines w.past) w' := by
  have hunheard : ∀ o ∈ l.notice field w.surface w.past, o.noticeTo? Streaming.name = none := by
    intro o ho
    obtain rfl | ho := List.mem_cons.mp ho
    · exact if_neg hname
    · obtain ⟨t, -, rfl⟩ := List.mem_map.mp ho
      rfl
  refine ⟨_, by rw [exec_tell, hl field w.surface w.past]; rfl, ?_⟩
  refine ⟨World.IsPrinted.without (w := w.after _) ⟨⟨hw.watches.once, hw.watches.spared⟩, hw.calm⟩
    (hspares field w.surface w.past), rfl,
    ⟨_, rfl, Occurrence.prints_notice_other hname field w.surface w.past⟩, ?_⟩
  exact Streaming.printedLines_append w.past fun o ho => hunheard o (List.mem_reverse.mp ho)

/-- The observer is told and can print what it has not printed. -/
theorem exists_tells_tell_printer (field : Field) (hw : w.IsPrinted)
    (hplain : field = .output → ∀ line ∈ unprinted w.surface w.past, line.IsPlain) :
    ∃ w', (tell field printer).exec w = (.ok ⟨⟩, w') ∧
      w.Tells (if field = .output then (unprinted w.surface w.past).map shown else [])
        (Streaming.printedWith field w.surface w.past) w' := by
  have hreact : printer.react field w.surface w.past =
      { prints := if field = .output then (unprinted w.surface w.past).map shown else [] } := by
    by_cases hfield : field = .output
    · rw [if_pos hfield]
      subst hfield
      exact Streaming.react_printer_output (hplain rfl)
    · rw [if_neg hfield]
      exact Streaming.react_printer_other hfield w.surface w.past
  have hprints := Occurrence.prints_notice printer field w.surface w.past
  rw [hreact] at hprints
  refine ⟨_, by rw [exec_tell, hreact]; rfl, ?_⟩
  exact ⟨⟨⟨hw.watches.once, hw.watches.spared⟩, hw.calm⟩, rfl, ⟨_, rfl, hprints⟩,
    Streaming.printedLines_notice field w.surface w.past⟩

/-- Other observers are told, one after the other. The induction is on the observers. -/
theorem exists_tells_forM (field : Field) {ls : List Listener}
    (hnames : ∀ l ∈ ls, l.name ≠ Streaming.name) (hspares : ∀ l ∈ ls, l.Spares Streaming.name)
    (hcalm : ∀ l ∈ ls, l.NeverFails) (hw : w.IsPrinted) :
    ∃ w', (ls.forM (tell field)).exec w = (.ok ⟨⟩, w') ∧ w.Tells [] (printedLines w.past) w' := by
  induction ls generalizing w with
  | nil => exact ⟨w, rfl, hw.tells_nothing⟩
  | cons l ls ih =>
    obtain ⟨w₁, hexec, htells⟩ := exists_tells_tell_other field (hnames l (by simp))
      (hspares l (by simp)) (hcalm l (by simp)) hw
    obtain ⟨w₂, hexec', htells'⟩ := ih (fun l' hl' => hnames l' (by simp [hl']))
      (fun l' hl' => hspares l' (by simp [hl'])) (fun l' hl' => hcalm l' (by simp [hl']))
      htells.printed
    rw [htells.count] at htells'
    refine ⟨w₂, ?_, htells.trans htells'⟩
    change (tell field l >>= fun _ => ls.forM (tell field)).exec w = _
    rw [exec_bind, hexec]
    exact hexec'

/-- Everyone is told about a part of the surface. -/
theorem exists_tells_notify (field : Field) (hw : w.IsPrinted)
    (hplain : field = .output → ∀ line ∈ unprinted w.surface w.past, line.IsPlain) :
    ∃ w', (notify field).exec w = (.ok ⟨⟩, w') ∧
      w.Tells (if field = .output then (unprinted w.surface w.past).map shown else [])
        (Streaming.printedWith field w.surface w.past) w' := by
  obtain ⟨before, after, hls, hbefore, -, hafter⟩ := List.filter_eq_cons_iff.mp hw.watches.once
  have hmem {l : Listener} (hl : l ∈ before ∨ l ∈ after) : l ∈ w.listeners := by
    rw [hls]
    exact hl.elim (List.mem_append_left _) fun h => List.mem_append_right _ (.tail printer h)
  have hname {l : Listener} (hl : l ∈ before ∨ l ∈ after) : l.name ≠ printer.name := by
    obtain hl | hl := hl
    · simpa using hbefore l hl
    · simpa using List.filter_eq_nil_iff.mp hafter l hl
  have hothers {ls : List Listener} (hsub : ∀ l ∈ ls, l ∈ before ∨ l ∈ after) {w' : World σ}
      (hw' : w'.IsPrinted) := exists_tells_forM field (fun l hl => hname (hsub l hl))
    (fun l hl => hw.watches.spared l (hmem (hsub l hl)))
    (fun l hl => hw.calm l (hmem (hsub l hl)) (hname (hsub l hl))) hw'
  -- those in front of the observer are told, then the observer, and then the others
  obtain ⟨w₁, hexec₁, htells₁⟩ := hothers (fun l hl => .inl hl) hw
  have hsame : unprinted w₁.surface w₁.past = unprinted w.surface w.past := by
    unfold Streaming.unprinted
    rw [htells₁.surface, htells₁.count]
  have hcount : Streaming.printedWith field w₁.surface w₁.past =
      Streaming.printedWith field w.surface w.past := by
    unfold Streaming.printedWith
    rw [htells₁.surface, htells₁.count]
  obtain ⟨w₂, hexec₂, htells₂⟩ := exists_tells_tell_printer field htells₁.printed
    (by rwa [hsame])
  obtain ⟨w₃, hexec₃, htells₃⟩ := hothers (fun l hl => .inr hl) htells₂.printed
  rw [hsame, hcount] at htells₂
  rw [htells₂.count] at htells₃
  have htells := htells₁.trans (htells₂.trans htells₃)
  rw [List.nil_append, List.append_nil] at htells
  refine ⟨w₃, ?_, htells⟩
  unfold notify
  rw [exec_bind, exec_get]
  dsimp only
  rw [hls, exec_forM_append, exec_bind, hexec₁]
  dsimp only
  rw [exec_bind, hexec₂]
  exact hexec₃

/-- Everyone is told about some parts of the surface. The induction is on the parts: behind the
first notice about the lines none is left that was not printed. -/
theorem exists_tells_forM_notify (fields : List Field) (hw : w.IsPrinted)
    (hplain : .output ∈ fields → ∀ line ∈ unprinted w.surface w.past, line.IsPlain) :
    ∃ w', (fields.forM notify).exec w = (.ok ⟨⟩, w') ∧
      w.Tells (if .output ∈ fields then (unprinted w.surface w.past).map shown else [])
        (if .output ∈ fields then w.surface.output.length else printedLines w.past) w' := by
  induction fields generalizing w with
  | nil => exact ⟨w, rfl, hw.tells_nothing⟩
  | cons field fields ih =>
    obtain ⟨w₁, hexec₁, htells₁⟩ := exists_tells_notify field hw fun hfield =>
      hplain (hfield ▸ List.mem_cons_self)
    have hexec {w₂ : World σ} (hrest : (fields.forM notify).exec w₁ = (.ok ⟨⟩, w₂)) :
        ((field :: fields).forM notify).exec w = (.ok ⟨⟩, w₂) := by
      change (notify field >>= fun _ => fields.forM notify).exec w = _
      rw [exec_bind, hexec₁]
      exact hrest
    by_cases hfield : field = .output
    · have hcount : printedLines w₁.past = w₁.surface.output.length := by
        rw [htells₁.count, htells₁.surface]
        exact if_pos hfield
      have hnone : unprinted w₁.surface w₁.past = [] := by
        unfold Streaming.unprinted
        rw [hcount, Nat.min_self, List.drop_length]
      obtain ⟨w₂, hexec₂, htells₂⟩ := ih htells₁.printed (by simp [hnone])
      have htells := htells₁.trans htells₂
      rw [hnone, hcount, htells₁.surface] at htells
      simp only [List.map_nil, ite_self, List.append_nil] at htells
      rw [if_pos hfield] at htells
      rw [if_pos (by simp [hfield]), if_pos (by simp [hfield])]
      exact ⟨w₂, hexec hexec₂, htells⟩
    · have hmem : Field.output ∈ field :: fields ↔ .output ∈ fields := by simp [Ne.symm hfield]
      have hcount : printedLines w₁.past = printedLines w.past := by
        rw [htells₁.count]
        exact if_neg hfield
      have hsame : unprinted w₁.surface w₁.past = unprinted w.surface w.past := by
        unfold Streaming.unprinted
        rw [htells₁.surface, hcount]
      obtain ⟨w₂, hexec₂, htells₂⟩ := ih htells₁.printed (by rwa [hsame, ← hmem])
      have htells := htells₁.trans htells₂
      rw [if_neg hfield, List.nil_append, hsame, hcount, htells₁.surface] at htells
      simp only [hmem]
      exact ⟨w₂, hexec hexec₂, htells⟩

end Act

/-! ## Changes of the surface -/

namespace SurfaceChange

/-- The lines that a change puts out. -/
def lines : SurfaceChange → List Text
  | .putLine line => [line]
  | .putImage _ | .grow _ | .paint _ | .disable | .clear | .remake => []

variable (c : SurfaceChange) {w : World σ}

/-- A change that announces the lines has put the new ones out behind those that were there, or has
taken all of them away. -/
theorem drop_update (s : SurfaceState) (hfields : .output ∈ c.fields) :
    (c.update s).output.drop (min s.output.length (c.update s).output.length) = c.lines := by
  cases c with
  | putLine line =>
    change (s.output ++ [line]).drop (min s.output.length (s.output ++ [line]).length) = [line]
    rw [Nat.min_eq_left (by simp), List.drop_left]
  | clear | remake => exact List.drop_nil
  | putImage | grow | paint | disable => simp [fields] at hfields

/-- A change that does not announce the lines leaves them as they are. -/
theorem output_update (s : SurfaceState) (hfields : .output ∉ c.fields) :
    (c.update s).output = s.output ∧ c.lines = [] := by
  cases c with
  | putLine | clear | remake => simp [fields, Field.all] at hfields
  | putImage | grow | paint | disable => exact ⟨rfl, rfl⟩

end SurfaceChange

/-- All lines of the surface are printed. -/
structure World.IsUpToDate (w : World σ) : Prop where
  /-- The lines are printed. -/
  printed : w.IsPrinted
  /-- All lines are printed. -/
  upToDate : printedLines w.past = w.surface.output.length

/-- **A change of the surface prints the new lines**, and does not fail, if they are plain. -/
theorem SurfaceChange.prints (c : SurfaceChange) {w : World σ} (hw : w.IsUpToDate)
    (hplain : ∀ line ∈ c.lines, line.IsPlain) :
    (c.act.exec w).1 = .ok ⟨⟩ ∧ (c.act.exec w).2.IsUpToDate ∧
      Occurrence.printedBy Streaming.name false ((c.act.exec w).2.since w.past.length) =
        c.lines.map shown := by
  let u : World σ := { w with surface := c.update w.surface }
  have hu : u.IsPrinted :=
    ⟨⟨hw.printed.watches.once, hw.printed.watches.spared⟩, hw.printed.calm⟩
  have hdue (hfields : .output ∈ c.fields) : unprinted u.surface u.past = c.lines := by
    change (c.update w.surface).output.drop (min (printedLines w.past) _) = _
    rw [hw.upToDate]
    exact c.drop_update w.surface hfields
  obtain ⟨w', hexec, htells⟩ := Act.exists_tells_forM_notify c.fields hu
    fun hfields => by rwa [hdue hfields]
  rw [c.exec_act, hexec]
  obtain ⟨os, hpast, hprints⟩ := htells.past
  refine ⟨rfl, ⟨htells.printed, ?_⟩, ?_⟩
  · rw [htells.count, htells.surface]
    by_cases hfields : .output ∈ c.fields
    · rw [if_pos hfields]
    · rw [if_neg hfields]
      exact hw.upToDate.trans (congrArg List.length (c.output_update _ hfields).1.symm)
  · have hpast' : w'.past = os.reverse ++ w.past := hpast
    rw [World.since_eq hpast', hprints.printedBy_eq]
    by_cases hfields : .output ∈ c.fields
    · rw [if_pos hfields, hdue hfields]
    · rw [if_neg hfields, (c.output_update w.surface hfields).2]
      rfl

/-! ## Whatever happens to a surface -/

/-- What happens to a surface: it is changed, other observers than the one with a name come and go,
and other things happen meanwhile. The changes are given, and what the observer prints when they
are announced. -/
inductive World.Undergoes (name : Text) (w : World σ) :
    List SurfaceChange → List Text → World σ → Prop
  /-- Nothing happens. -/
  | nothing : Undergoes name w [] [] w
  /-- The surface is changed, whether or not that fails. -/
  | changed {cs : List SurfaceChange} {ts : List Text} {w' : World σ} (c : SurfaceChange) :
      Undergoes name w cs ts w' → Undergoes name w (cs ++ [c])
        (ts ++ Occurrence.printedBy name false ((c.act.exec w').2.since w'.past.length))
        (c.act.exec w').2
  /-- Something else happens, of which no observer is told. -/
  | meanwhile {cs : List SurfaceChange} {ts : List Text} {w' w'' : World σ}
      (os : List Occurrence) : Undergoes name w cs ts w' → w''.surface = w'.surface →
      w''.listeners = w'.listeners → w''.past = os.reverse ++ w'.past → AreSilent os →
      Undergoes name w cs ts w''
  /-- Another observer subscribes, which never fails and does not make the observer leave. -/
  | subscribed {cs : List SurfaceChange} {ts : List Text} {w' : World σ} {l : Listener} :
      Undergoes name w cs ts w' → l.name ≠ name → l.Spares name → l.NeverFails →
      Undergoes name w cs ts ((Act.subscribe l).exec w').2
  /-- The subscription of another observer ends. -/
  | unsubscribed {cs : List SurfaceChange} {ts : List Text} {w' : World σ} {other : Text} :
      Undergoes name w cs ts w' → other ≠ name →
      Undergoes name w cs ts ((Act.unsubscribe other).exec w').2

namespace World.Undergoes

variable {name : Text} {cs cs' : List SurfaceChange} {ts ts' : List Text} {w w' w'' : World σ}

/-- Something happens, and then something else. The induction is on what happens then. -/
theorem trans (h : w.Undergoes name cs ts w') (h' : w'.Undergoes name cs' ts' w'') :
    w.Undergoes name (cs ++ cs') (ts ++ ts') w'' := by
  induction h' with
  | nothing =>
    rw [List.append_nil, List.append_nil]
    exact h
  | changed c _ ih =>
    rw [← List.append_assoc, ← List.append_assoc]
    exact ih.changed c
  | meanwhile os _ hsurface hlisteners hpast hos ih =>
    exact ih.meanwhile os hsurface hlisteners hpast hos
  | subscribed _ hname hspares hcalm ih => exact ih.subscribed hname hspares hcalm
  | unsubscribed _ hname ih => exact ih.unsubscribed hname

/-- The surface is what the changes have made of it. -/
theorem surface_eq (h : w.Undergoes name cs ts w') :
    w'.surface = cs.foldl (fun s c => c.update s) w.surface := by
  induction h with
  | nothing => rfl
  | changed c _ ih => rw [c.surface_act, ih, List.foldl_append, List.foldl_cons, List.foldl_nil]
  | meanwhile os _ hsurface _ _ _ ih => exact hsurface.trans ih
  | subscribed _ _ _ _ ih => exact ih
  | unsubscribed _ _ ih => exact ih

/-- **All new lines are printed**, in order, while plain lines are put out. The induction is on what
happens. -/
theorem prints (h : w.Undergoes Streaming.name cs ts w') (hw : w.IsUpToDate)
    (hplain : ∀ line ∈ cs.flatMap SurfaceChange.lines, line.IsPlain) :
    w'.IsUpToDate ∧ ts = (cs.flatMap SurfaceChange.lines).map shown := by
  induction h with
  | nothing => exact ⟨hw, rfl⟩
  | changed c _ ih =>
    rw [List.flatMap_append, List.flatMap_singleton] at hplain ⊢
    obtain ⟨hupToDate, rfl⟩ := ih fun line hline => hplain line (List.mem_append_left _ hline)
    obtain ⟨-, hupToDate', hprinted⟩ := c.prints hupToDate fun line hline =>
      hplain line (List.mem_append_right _ hline)
    refine ⟨hupToDate', ?_⟩
    rw [hprinted, List.map_append]
  | @meanwhile cs ts w' w'' os _ hsurface hlisteners hpast hos ih =>
    obtain ⟨hupToDate, hts⟩ := ih hplain
    refine ⟨⟨⟨⟨?_, ?_⟩, ?_⟩, ?_⟩, hts⟩
    · exact hlisteners ▸ hupToDate.printed.watches.once
    · exact hlisteners ▸ hupToDate.printed.watches.spared
    · exact hlisteners ▸ hupToDate.printed.calm
    · rw [hpast, hsurface, ← hupToDate.upToDate]
      exact Streaming.printedLines_append w'.past fun o ho => hos o (List.mem_reverse.mp ho) _
  | @subscribed cs ts w' l _ hname hspares hcalm ih =>
    obtain ⟨hupToDate, hts⟩ := ih hplain
    refine ⟨⟨⟨⟨?_, fun l' hl' => ?_⟩, fun l' hl' hne => ?_⟩, hupToDate.upToDate⟩, hts⟩
    · have hother : l.name ≠ printer.name := hname
      have honce : (w'.listeners ++ [l]).filter (fun l' => l'.name = printer.name) = [printer] := by
        rw [List.filter_append, hupToDate.printed.watches.once,
          List.filter_cons_of_neg (by simpa using hother)]
        rfl
      exact honce
    · obtain hl' | hl' := List.mem_append.mp hl'
      · exact hupToDate.printed.watches.spared l' hl'
      · rw [List.mem_singleton.mp hl']
        exact hspares
    · obtain hl' | hl' := List.mem_append.mp hl'
      · exact hupToDate.printed.calm l' hl' hne
      · rw [List.mem_singleton.mp hl']
        exact hcalm
  | unsubscribed _ hname ih =>
    obtain ⟨hupToDate, hts⟩ := ih hplain
    exact ⟨⟨hupToDate.printed.without (by simpa using hname.symm), hupToDate.upToDate⟩, hts⟩

end World.Undergoes

/-! ## After the subscription -/

/-- Nobody observes the surface under a name. -/
def World.LacksObserver (name : Text) (w : World σ) : Prop := ∀ l ∈ w.listeners, l.name ≠ name

/-- Without an observer of a name none comes, and none prints anything. -/
def World.StaysUnprinted (name : Text) (w w' : World σ) : Prop :=
  w.LacksObserver name → w'.LacksObserver name ∧
    ∃ os, w'.past = os.reverse ++ w.past ∧ Occurrence.Prints name [] os

instance (name : Text) : Act.Frame (World.StaysUnprinted (σ := σ) name) where
  refl w hw := ⟨hw, [], rfl, .nil⟩
  trans {w w' w''} h h' hw := by
    obtain ⟨hw', os, hpast, hos⟩ := h hw
    obtain ⟨hw'', os', hpast', hos'⟩ := h' hw'
    refine ⟨hw'', os ++ os', ?_, hos.append hos'⟩
    rw [hpast', hpast, List.reverse_append, List.append_assoc]

namespace Act

/-- Without an observer of a name none prints anything when a part of the surface is announced. -/
theorem staysUnprinted_notify (name : Text) (field : Field) :
    Respects (World.StaysUnprinted name) (notify field : Act σ Unit) := by
  have htell {l : Listener} (hname : l.name ≠ name) :
      Respects (World.StaysUnprinted name) (tell field l : Act σ PUnit) := by
    intro w hw
    rw [exec_tell]
    exact ⟨fun l' hl' => hw l' ((without_sublist _ _).subset hl'), _, rfl,
      Occurrence.prints_notice_other hname field w.surface w.past⟩
  intro w hw
  have hall : Respects (World.StaysUnprinted name) (w.listeners.forM (tell field) : Act σ PUnit) :=
    .forM fun l hl => htell (hw l hl)
  exact hall w hw

/-- Without an observer of a name none prints anything when the surface is changed. -/
theorem staysUnprinted_change (name : Text) (c : SurfaceChange) :
    Respects (World.StaysUnprinted name) (c.act : Act σ Unit) := by
  intro w hw
  exact SurfaceChange.respects_act (staysUnprinted_notify name) c w hw

/-- When the only subscription of a name ends, nobody observes the surface under this name. -/
theorem lacksObserver_unsubscribe {w : World σ} {l : Listener} (hw : w.Watches l) :
    ((unsubscribe l.name).exec w).2.LacksObserver l.name := by
  obtain ⟨before, after, hls, hbefore, -, hafter⟩ := List.filter_eq_cons_iff.mp hw.once
  have hleft : ((unsubscribe l.name).exec w).2.listeners = before ++ after := by
    change w.listeners.eraseP (fun l' => l'.name = l.name) = before ++ after
    rw [hls, List.eraseP_append_right _ (by simpa using hbefore),
      List.eraseP_cons_of_pos (by simp)]
  intro l' hl'
  rw [hleft] at hl'
  obtain hl' | hl' := List.mem_append.mp hl'
  · simpa using hbefore l' hl'
  · simpa using List.filter_eq_nil_iff.mp hafter l' hl'

end Act

/-- Without an observer of a name none prints anything, whatever happens. The induction is on what
happens. -/
theorem World.Undergoes.prints_nothing {name : Text} {cs : List SurfaceChange} {ts : List Text}
    {w w' : World σ} (h : w.Undergoes name cs ts w') (hw : w.LacksObserver name) :
    w'.LacksObserver name ∧ ts = [] := by
  induction h with
  | nothing => exact ⟨hw, rfl⟩
  | @changed cs ts w' c _ ih =>
    obtain ⟨hw', rfl⟩ := ih
    obtain ⟨hw'', os, hpast, hos⟩ := Act.staysUnprinted_change name c w' hw'
    rw [World.since_eq hpast, hos.printedBy_eq]
    exact ⟨hw'', rfl⟩
  | meanwhile os _ _ hlisteners _ _ ih =>
    exact ⟨fun l hl => ih.1 l (hlisteners ▸ hl), ih.2⟩
  | subscribed _ hname _ _ ih =>
    refine ⟨fun l hl => ?_, ih.2⟩
    obtain hl | hl := List.mem_append.mp hl
    · exact ih.1 l hl
    · rw [List.mem_singleton.mp hl]
      exact hname
  | unsubscribed _ _ ih =>
    exact ⟨fun l hl => ih.1 l ((Act.without_sublist _ _).subset hl), ih.2⟩

/-! ## Whatever runs do -/

/-- What happens to a surface while the observer with a name stays leads from a world to a later
one. -/
def World.LeadsTo (name : Text) (w w' : World σ) : Prop := ∃ cs ts, w.Undergoes name cs ts w'

instance (name : Text) : Act.Frame (World.LeadsTo (σ := σ) name) where
  refl _ := ⟨[], [], .nothing⟩
  trans := by
    rintro w w' w'' ⟨cs, ts, h⟩ ⟨cs', ts', h'⟩
    exact ⟨cs ++ cs', ts ++ ts', h.trans h'⟩

/-- Other things happen. -/
theorem World.leadsTo_meanwhile {name : Text} {w w' : World σ} {os : List Occurrence}
    (hsurface : w'.surface = w.surface) (hlisteners : w'.listeners = w.listeners)
    (hpast : w'.past = os.reverse ++ w.past) (hos : AreSilent os) : w.LeadsTo name w' :=
  ⟨[], [], .meanwhile os .nothing hsurface hlisteners hpast hos⟩

instance (name : Text) : Upkeep (World.LeadsTo (σ := σ) name) where
  change c w := ⟨_, _, .changed c .nothing⟩
  aside os hsurface hlisteners hpast hos := by
    refine World.leadsTo_meanwhile hsurface hlisteners hpast fun o ho name => ?_
    cases o with
    | logged | slept => rfl
    | notified | asked | called | printed => cases hos _ ho

instance (name : Text) {h : Host σ} [h.IsDiscreet] : h.KeepsUp (World.LeadsTo name) where
  ask r w := World.leadsTo_meanwhile rfl rfl rfl (Host.IsDiscreet.ask r w.host)
  settle r w := World.leadsTo_meanwhile rfl rfl rfl (Host.IsDiscreet.settle r w.host)
  abandon r w := World.leadsTo_meanwhile rfl rfl rfl (Host.IsDiscreet.abandon r w.host)

/-- Whatever is done happens to the surface. The induction is on what is done. -/
theorem Traffic.leadsTo_performAll {name : Text} {h : Host σ} [h.IsDiscreet] {ops : List Operation}
    (hleaves : ∀ op ∈ ops, op.Leaves name) (hcalm : ∀ op ∈ ops, ∀ l, op.brings l → l.NeverFails)
    (t : Traffic σ) : t.world.LeadsTo name (t.performAll h ops).world := by
  induction ops generalizing t with
  | nil => exact Act.Frame.refl _
  | cons op ops ih =>
    have hfirst : t.world.LeadsTo name (t.perform h op).world := by
      have hleaves' := hleaves op (by simp)
      cases op with
      | change c => exact Upkeep.change c t.world
      | run workflow => exact Run.upkeep_complete h workflow t.world
      | turn turn => exact t.upkeep_take turn
      | subscribe l =>
        have hl : l.NeverFails := hcalm (.subscribe l) (by simp) l rfl
        exact ⟨[], [], .subscribed .nothing hleaves'.1 hleaves'.2 hl⟩
      | unsubscribe other => exact ⟨[], [], .unsubscribed .nothing hleaves'⟩
    exact Act.Frame.trans hfirst (ih (fun op' hop' => hleaves op' (by simp [hop']))
      (fun op' hop' => hcalm op' (by simp [hop'])) (t.perform h op))

/-- Repeated presses happen to the surface. The induction is on the presses that are left. -/
theorem Press.leadsTo_repeated {name : Text} {once : Act σ Unit}
    (honce : Act.Respects (World.LeadsTo name) once) (times left : Nat) :
    Act.Respects (World.LeadsTo name) (Press.repeated once times left) := by
  have hprinted (t : Text) :
      Act.Respects (World.LeadsTo name) (Act.occur (.printed t) : Act σ Unit) :=
    fun _ => World.leadsTo_meanwhile rfl rfl rfl (.printed t)
  induction left with
  | zero => exact .pure _
  | succ left ih =>
    unfold Press.repeated
    refine Act.Respects.get.bind fun w => ?_
    split
    · exact hprinted _
    · split
      · exact (hprinted _).bind fun _ => honce.bind fun _ => ih
      · exact honce.bind fun _ => ih

/-- The observer leaves its own subscription alone. -/
theorem Streaming.spares_printer : printer.Spares Streaming.name := by
  intro field s past
  cases field with
  | output =>
    change Streaming.name ∉ (Reaction.onConsole { prints := _ }).unsubscribes
    unfold Reaction.onConsole
    split
    · exact List.not_mem_nil
    · exact List.not_mem_nil
  | images | scale | color | disabled => exact List.not_mem_nil

/-- Where the observer is the only one, it prints the lines. -/
theorem World.isPrinted_of_alone {w : World σ} (hw : w.listeners = [printer]) : w.IsPrinted := by
  refine ⟨⟨by rw [hw]; rfl, fun l hl => ?_⟩, fun l hl hname => ?_⟩
  all_goals
    rw [hw] at hl
    obtain rfl := List.mem_singleton.mp hl
  · exact Streaming.spares_printer
  · exact (hname rfl).elim

end PushButton
