import PushButton.Decimal.Notation
import PushButton.Json.Value

/-!
# The state of the surface

A surface shows a button with its size, its colour and whether it is disabled, and below it the
lines and the images that the runs have put out.
-/

namespace PushButton

/-- The parts of the state of which observers are told. -/
inductive Field where
  /-- The lines. -/
  | output
  /-- The images. -/
  | images
  /-- The size of the button. -/
  | scale
  /-- The colour of the button. -/
  | color
  /-- Whether the button is disabled. -/
  | disabled
deriving DecidableEq, Repr

namespace Field

/-- The parts in order. -/
def all : List Field := [.output, .images, .scale, .color, .disabled]

/-- The name of a part. -/
def name : Field → Text
  | .output => "output_log"
  | .images => "image_queue"
  | .scale => "button_scale"
  | .color => "button_color"
  | .disabled => "button_disabled"

end Field

/-- What a surface shows. -/
structure SurfaceState where
  /-- The lines, in the order in which they were put out. -/
  output : List Text := []
  /-- The addresses of the images, in the order in which they were put out. -/
  images : List Text := []
  /-- The size of the button. -/
  scale : Float := 1
  /-- The colour of the button. -/
  color : Text
  /-- The button is disabled. -/
  disabled : Bool := false
  /-- The colour of the button when the surface is made anew. -/
  initialColor : Text
deriving DecidableEq, Repr

namespace SurfaceState

/-- The colour of a button that was given none. -/
def standardColor : Text := "#3B82F6"

/-- How much a button grows. -/
def growth : Float := 0.2

/-- A new surface. -/
def fresh (color : Text := standardColor) : SurfaceState :=
  { color := color, initialColor := color }

/-- The state without lines and images. -/
def cleared (s : SurfaceState) : SurfaceState := { s with output := [], images := [] }

/-- The state of the surface when it is made anew. -/
def remade (s : SurfaceState) : SurfaceState := fresh s.initialColor

/-- The state as a JSON value. -/
def snapshot (s : SurfaceState) : Json :=
  .object [(Field.output.name, .array (s.output.map .text)),
    (Field.images.name, .array (s.images.map .text)), (Field.scale.name, .float s.scale),
    (Field.color.name, .text s.color), (Field.disabled.name, .bool s.disabled)]

/-- Two states show the same, and would again when made anew; sizes that are no numbers differ. -/
def same (a b : SurfaceState) : Bool :=
  a.output = b.output && a.images = b.images && a.scale == b.scale && a.color = b.color &&
    a.disabled = b.disabled && a.initialColor = b.initialColor

end SurfaceState

end PushButton
