import PushButton.Surface.Markup
import PushButton.Surface.State

/-!
# The rendering of a surface

A surface is rendered as a text with markup: the label, the size and the colour of the button, a
mark when it is disabled, the lines, and the numbered addresses of the images. Label, lines and
addresses are shown as they are; the colour may hold markup.
-/

namespace PushButton

namespace SurfaceState

/-- The title of a rendered surface. -/
def title : Text := "Button Output"

/-- The line about the button. -/
def buttonLine (label : Text) (s : SurfaceState) : Text :=
  ("[bold]" : Text) ++ Markup.escape label ++ "[/bold]" ++ "  scale=" ++ Decimal.fixed 1 s.scale ++
    "  color=" ++ s.color ++ (if s.disabled then ("  [red](disabled)[/red]" : Text) else [])

/-- A heading and what stands below it; nothing when nothing stands there. -/
def part (heading : Text) (entries : List Text) : List Text :=
  let line : Text := "[bold]" ++ heading ++ ":[/bold]"
  if entries.isEmpty then [] else [] :: line :: entries

/-- The lines below the button. -/
def outputPart (s : SurfaceState) : List Text :=
  part "Output" (s.output.map fun (t : Text) => "  " ++ Markup.escape t)

/-- The numbered addresses of the images. -/
def imagesPart (s : SurfaceState) : List Text :=
  part "Images" (s.images.zipIdx.map fun ((url : Text), i) =>
    "  " ++ Text.ofNat (i + 1) ++ ". " ++ Markup.escape url)

/-- A surface as a text with markup. -/
def markup (label : Text) (s : SurfaceState) : Text :=
  Text.join "\n" (buttonLine label s :: outputPart s ++ imagesPart s)

end SurfaceState

end PushButton
