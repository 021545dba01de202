import PushButton.Cli.Press
import PushButton.Proofs.Host.Conduct
import PushButton.Proofs.Log.Journal
import PushButton.Proofs.Run.Storing
import PushButton.Proofs.Run.Upkeep

/-!
# What runs leave for the log

Every record that is made while runs are under way is a usual one, if the host makes only usual
ones; the terminal does, and so does a browser. And runs change no file but that of the storage:
what they do to it is to put texts into it. The same is true of presses, which are runs in a row.
-/

namespace PushButton

variable {σ α : Type}

/-! ## Usual records -/

/-- If a record is made, it is a usual one. -/
def Occurrence.IsUsual (o : Occurrence) : Prop := ∀ r ∈ o.record?, r.IsUsual

/-- What makes no record makes none that is unusual. -/
theorem Occurrence.isUsual_of_record? {o : Occurrence} (h : o.record? = none) : o.IsUsual := by
  simp [IsUsual, h]

/-- A usual record is made. -/
theorem Occurrence.isUsual_logged {r : Record} (h : r.IsUsual) : (logged r).IsUsual := by
  simpa [IsUsual, record?] using h

/-- As long as no unusual record was made, none is. -/
def World.KeepsUsual (w w' : World σ) : Prop :=
  (∀ o ∈ w.past, o.IsUsual) → ∀ o ∈ w'.past, o.IsUsual

instance : Act.Frame (World.KeepsUsual (σ := σ)) where
  refl _ hw := hw
  trans h h' hw := h' (h hw)

/-- No unusual record is among the things that happen. -/
theorem World.keepsUsual_of_past {w w' : World σ} {os : List Occurrence}
    (hpast : w'.past = os.reverse ++ w.past) (hos : ∀ o ∈ os, o.IsUsual) : w.KeepsUsual w' := by
  intro hw o ho
  rw [hpast] at ho
  obtain ho | ho := List.mem_append.mp ho
  · exact hos o (List.mem_reverse.mp ho)
  · exact hw o ho

/-- A printed text is no record. -/
theorem World.keepsUsual_of_printed {w w' : World σ} {t : Text}
    (hpast : w'.past = .printed t :: w.past) : w.KeepsUsual w' := by
  have hprinted : w'.past = [Occurrence.printed t].reverse ++ w.past := hpast
  refine keepsUsual_of_past hprinted fun o ho => ?_
  obtain rfl := List.mem_singleton.mp ho
  exact Occurrence.isUsual_of_record? rfl

/-- Observers make no records. -/
theorem Act.keepsUsual_notify (field : Field) :
    Respects World.KeepsUsual (notify field : Act σ Unit) := by
  have htell (l : Listener) : Respects World.KeepsUsual (tell field l : Act σ PUnit) := by
    intro w
    rw [exec_tell]
    refine World.keepsUsual_of_past rfl fun o ho => ?_
    obtain rfl | ho := List.mem_cons.mp ho
    · exact Occurrence.isUsual_of_record? rfl
    · obtain ⟨t, -, rfl⟩ := List.mem_map.mp ho
      exact Occurrence.isUsual_of_record? rfl
  exact Respects.get.bind fun w => .forM fun l _ => htell l

instance : Upkeep (World.KeepsUsual (σ := σ)) where
  change c w hw := SurfaceChange.respects_act Act.keepsUsual_notify c w hw
  aside os _ _ hpast hos := by
    refine World.keepsUsual_of_past hpast fun o ho => ?_
    cases o with
    | logged r => exact Occurrence.isUsual_logged (hos _ ho)
    | slept ms => exact Occurrence.isUsual_of_record? rfl
    | notified | asked | called | printed => cases hos _ ho

instance {h : Host σ} [h.KeepsTo Occurrence.IsUsual] : h.KeepsUp World.KeepsUsual where
  ask r w := World.keepsUsual_of_past rfl (Host.KeepsTo.ask r w.host)
  settle r w := World.keepsUsual_of_past rfl (Host.KeepsTo.settle r w.host)
  abandon r w := World.keepsUsual_of_past rfl (Host.KeepsTo.abandon r w.host)

/-- The terminal makes usual records. -/
theorem Terminal.isUsual_reply (r : Request) (t : Terminal) :
    ∀ o ∈ (reply r t).2.2, o.IsUsual := by
  have hone {o : Occurrence} (ho : o.IsUsual) : ∀ o' ∈ [o], o'.IsUsual := by simpa using ho
  have hprints (text : Text) : ∀ o ∈ [Occurrence.printed text], o.IsUsual :=
    hone (Occurrence.isUsual_of_record? rfl)
  unfold reply
  cases r with
  | alert message =>
    dsimp only
    split
    · exact hprints _
    · exact hprints _
  | prompt message =>
    dsimp only
    split
    · exact hprints _
    · exact hprints _
  | reload =>
    have hlogger : logger.IsPlain := by decide
    exact hone (Occurrence.isUsual_logged ⟨.outside, hlogger, rfl⟩)
  | close => exact nofun

instance : Terminal.host.KeepsTo Occurrence.IsUsual :=
  ⟨Terminal.isUsual_reply, Terminal.isUsual_reply, nofun⟩

instance : Press.terminal.KeepsTo Occurrence.IsUsual :=
  inferInstanceAs (Terminal.host.onConsole.KeepsTo _)

namespace Browser

/-- A call makes no record. -/
theorem isUsual_called (c : PageCall) : (Occurrence.called c).IsUsual :=
  Occurrence.isUsual_of_record? rfl

/-- A browser makes usual records. -/
theorem isUsual_logged (level : Level) (message : Text) :
    (Occurrence.logged ⟨level, logger, message, [], none⟩).IsUsual :=
  Occurrence.isUsual_logged ⟨.outside, (by decide : logger.IsPlain), rfl⟩

end Browser

instance {ρ : Type} {h : Host ρ} [h.KeepsTo Occurrence.IsUsual] :
    (Browser.host h).KeepsTo Occurrence.IsUsual :=
  BrowserAct.keepsTo_host Browser.isUsual_called Browser.isUsual_logged

/-! ## Files that runs spare -/

/-- If the storage is kept in another file, a file is spared. -/
def World.SparesFile (l : Location) (w w' : World σ) : Prop :=
  w.shelf.IsApart l → w.shelf.Spares l w'.shelf

instance (l : Location) : Act.Frame (World.SparesFile (σ := σ) l) where
  refl w _ := .refl l w.shelf
  trans h h' hw := (h hw).trans (h' (hw.of_spares (h hw)))

/-- What spares the storage spares other files. -/
theorem World.KeepsShelf.sparesFile {w w' : World σ} (h : w.KeepsShelf w') (l : Location) :
    w.SparesFile l w' := fun _ => h.shelf ▸ .refl l w.shelf

/-- What puts texts into the storage spares other files. -/
theorem Shelf.Writes.spares {s s' : Shelf} {xs : List Writing} {l : Location}
    (h : s.Writes xs s') (hs : s.IsApart l) : s.Spares l s' := by
  induction h with
  | nil => exact .refl l s
  | append x _ _ ih => exact ih.trans ((hs.of_spares ih).spares_set x.key x.value)

section Moves

variable {h : Host σ} {x y : World σ × Run} {ds : List Deed}

/-- A move changes the storage by putting texts into it. -/
theorem Move.exists_writes (hmove : Move h x ds y) : ∃ xs, x.1.shelf.Writes xs y.1.shelf := by
  -- which actions were applied before makes no difference
  let before := List.replicate x.2.index (⟨[], .showText, none⟩ : Action)
  have hactions : x.2.remaining = (before ++ x.2.remaining).drop x.2.index := by simp [before]
  exact ⟨_, hmove.writes hactions 0⟩

/-- Moves spare the files at other locations than that of the storage. -/
theorem Moves.sparesFile (hmoves : Moves h x ds y) (l : Location) : x.1.SparesFile l y.1 := by
  induction hmoves with
  | none x => exact Act.Frame.refl x.1
  | cons hmove _ ih =>
    obtain ⟨xs, hwrites⟩ := hmove.exists_writes
    exact Act.Frame.trans (fun hw => hwrites.spares hw) ih

end Moves

namespace Run

variable (h : Host σ)

/-- A run that goes on spares the files at other locations. -/
theorem sparesFile_advance (r : Run) (p : Pauses) (l : Location) (w : World σ) :
    w.SparesFile l ((r.advance h p).run w).2 := by
  obtain ⟨ds, hmoves, -⟩ := exists_moves_advance h p r w
  exact hmoves.sparesFile l

/-- A complete run spares the files at other locations. -/
theorem sparesFile_complete (w : Option Workflow) (l : Location) :
    Act.Respects (World.SparesFile l) (complete h w) := by
  have hadvance : Act.Respects (World.SparesFile l)
      (liftM (advance h {} (ofWorkflow w)) : Act σ (Run × Progress)) :=
    .lift ((ofWorkflow w).sparesFile_advance h {} l)
  unfold complete
  refine hadvance.bind fun ⟨r, progress⟩ => ?_
  cases progress with
  | failed f => exact .throw f
  | sleeping | asking | stepped | done => exact .pure _

end Run

/-! ## Presses -/

namespace Press

/-- Repeated presses respect a relation that single presses respect, and printing. -/
theorem respects_repeated {R : World σ → World σ → Prop} [Act.Frame R] {once : Act σ Unit}
    (hprint : ∀ t, Act.Respects R (Act.occur (.printed t) : Act σ Unit))
    (honce : Act.Respects R once) (times left : Nat) :
    Act.Respects R (repeated once times left) := by
  induction left with
  | zero => exact .pure _
  | succ left ih =>
    unfold repeated
    refine Act.Respects.get.bind fun w => ?_
    split
    · exact hprint _
    · split
      · exact (hprint _).bind fun _ => honce.bind fun _ => ih
      · exact honce.bind fun _ => ih

variable {ρ : Type}

/-- Something that is done with the browser of a world leads to the state of the browser
afterwards. -/
theorem exec_withBrowser (act : BrowserAct ρ α) (w : World (Browser ρ)) :
    ((withBrowser act).exec w).2 =
      { w with host := (act.exec (w.host, [])).2.1 }.after (act.exec (w.host, [])).2.2 := by
  have hperform : w.host.perform act = act.exec (w.host, []) := rfl
  unfold withBrowser
  rw [Act.exec_bind, Act.exec_get]
  dsimp only
  rw [hperform]
  generalize act.exec (w.host, []) = out
  obtain ⟨res, b, os⟩ := out
  cases res <;> rfl

section InBrowser

variable {R : World (Browser ρ) → World (Browser ρ) → Prop} [Act.Frame R] {h : Host ρ}
  (hadvance : ∀ (r : Run) p w, R w ((r.advance (Browser.host h) p).run w).2)
  (hrender : ∀ s, Act.Respects R (withBrowser (Browser.render s : BrowserAct ρ Unit)))

include hadvance hrender

/-- A run that is shown in a page respects a relation that runs and rendering respect. The induction
is on how often the run may be left. -/
theorem respects_runShown (r : Run) (bound : Nat) : Act.Respects R (runShown h r bound) := by
  induction bound generalizing r with
  | zero => exact .pure _
  | succ bound ih =>
    have honward : Act.Respects R (liftM (r.advance (Browser.host h) { steps := true }) :
        Act (Browser ρ) (Run × Progress)) := .lift (hadvance r _)
    refine honward.bind fun x => ?_
    split
    · exact .throw _
    · exact Act.Respects.get.bind fun w => (hrender _).bind fun _ => ih _
    · exact .pure _

/-- Presses in a browser respect a relation that runs and the uses of the browser respect. -/
theorem respects_inBrowser (hprint : ∀ t, Act.Respects R (Act.occur (.printed t)))
    (hstart : Act.Respects R (withBrowser (Browser.start : BrowserAct ρ Unit)))
    (hclose : Act.Respects R (withBrowser (Browser.close : BrowserAct ρ Unit)))
    (w : Workflow) (times : Nat) : Act.Respects R (inBrowser h w times) := by
  have honce := respects_runShown hadvance hrender (Run.ofWorkflow (some w)) (w.actions.length + 1)
  refine hstart.bind fun _ => ?_
  refine ((respects_repeated hprint honce times times).tryCatch fun f => ?_).bind fun _ => hclose
  exact hclose.bind fun _ => .throw f

end InBrowser

/-- Presses on the terminal make usual records only. -/
theorem keepsUsual_onTerminal (w : Workflow) (times : Nat) :
    Act.Respects World.KeepsUsual (onTerminal w times) := by
  refine respects_repeated (fun t _ => ?_) (Run.upkeep_complete terminal (some w)) times times
  exact World.keepsUsual_of_printed rfl

/-- Presses in a browser make usual records only. -/
theorem keepsUsual_inBrowser (w : Workflow) (times : Nat) :
    Act.Respects World.KeepsUsual (inBrowser terminal w times) := by
  have huse {act : BrowserAct Terminal Unit} (hact : act.KeepsTo Occurrence.IsUsual) :
      Act.Respects World.KeepsUsual (withBrowser act) := by
    intro v
    rw [exec_withBrowser]
    exact World.keepsUsual_of_past rfl (hact v.host [] nofun)
  refine respects_inBrowser (fun r p v => r.upkeep_advance _ p v) (fun s => huse ?_)
    (fun t _ => ?_) (huse ?_) (huse ?_) w times
  · exact BrowserAct.keepsTo_render Browser.isUsual_called Browser.isUsual_logged s
  · exact World.keepsUsual_of_printed rfl
  · exact BrowserAct.keepsTo_start Browser.isUsual_called Browser.isUsual_logged
  · exact BrowserAct.keepsTo_close Browser.isUsual_called

/-- Presses on the terminal spare the files at other locations than that of the storage. -/
theorem sparesFile_onTerminal (w : Workflow) (times : Nat) (l : Location) :
    Act.Respects (World.SparesFile l) (onTerminal w times) :=
  respects_repeated (fun _ _ => World.KeepsShelf.sparesFile ⟨rfl⟩ l)
    (Run.sparesFile_complete terminal (some w) l) times times

/-- Presses in a browser spare the files at other locations than that of the storage. -/
theorem sparesFile_inBrowser (w : Workflow) (times : Nat) (l : Location) :
    Act.Respects (World.SparesFile l) (inBrowser terminal w times) := by
  have huse (act : BrowserAct Terminal Unit) :
      Act.Respects (World.SparesFile l) (withBrowser act) := by
    intro v
    rw [exec_withBrowser]
    exact World.KeepsShelf.sparesFile ⟨rfl⟩ l
  exact respects_inBrowser (fun r p v => r.sparesFile_advance _ p l v) (fun s => huse _)
    (fun _ _ => World.KeepsShelf.sparesFile ⟨rfl⟩ l) (huse _) (huse _) w times

end Press

end PushButton
