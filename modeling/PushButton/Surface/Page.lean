import PushButton.Text.Symbol

/-!
# The page of a surface

The page in which a browser shows a surface: a document with the label and the colour of the button,
in which the five characters that have a meaning in documents are written by name.
-/

namespace PushButton

namespace Page

/-- A symbol as it is written in a document. -/
def escapeSymbol (s : Symbol) : Text :=
  if s = .char '&' then "&amp;"
  else if s = .char '<' then "&lt;"
  else if s = .char '>' then "&gt;"
  else if s = .char '"' then "&quot;"
  else if s = .char '\'' then "&#x27;"
  else [s]

/-- A text as it is written in a document. -/
def escape (t : Text) : Text := t.flatMap escapeSymbol

/-- The document up to the colour. -/
def top : Text :=
  Text.ofString (
    "<!doctype html>\n" ++
    "<html>\n" ++
    "<head><meta charset=\"utf-8\"><title>Button Output</title>\n" ++
    "<style>\n" ++
    "  body \x7b font-family: sans-serif; max-width: 48rem; margin: 2rem auto; text-align: " ++
    "center; \x7d\n" ++
    "  #trigger \x7b padding: .75rem 1.5rem; border: 0; border-radius: .375rem; color: " ++
    "#fff;\n" ++
    "             background: ")

/-- The document between the colour and the label. -/
def middle : Text :=
  Text.ofString (
    "; transition: all .3s; \x7d\n" ++
    "  #trigger:disabled \x7b opacity: .5; cursor: not-allowed; \x7d\n" ++
    "  #output p \x7b text-align: left; \x7d\n" ++
    "  #images img \x7b max-width: 100%; display: block; margin: 1rem auto; \x7d\n" ++
    "</style></head>\n" ++
    "<body>\n" ++
    "  <h1>Button Output</h1>\n" ++
    "  <div style=\"height: 8rem; display: flex; align-items: center; justify-content: " ++
    "center;\">\n" ++
    "    <button id=\"trigger\">")

/-- The document behind the label. -/
def bottom : Text :=
  Text.ofString (
    "</button>\n" ++
    "  </div>\n" ++
    "  <div id=\"output\"></div>\n" ++
    "  <div id=\"images\"></div>\n" ++
    "  <script>\n" ++
    "    window.__render = (s) => \x7b\n" ++
    "      const b = document.getElementById('trigger');\n" ++
    "      b.style.transform = 'scale(' + s.button_scale + ')';\n" ++
    "      b.style.backgroundColor = s.button_color;\n" ++
    "      b.disabled = s.button_disabled;\n" ++
    "      const out = document.getElementById('output');\n" ++
    "      out.replaceChildren(...s.output_log.map(t => \x7b const p = " ++
    "document.createElement('p'); p.textContent = t; return p; \x7d));\n" ++
    "      const imgs = document.getElementById('images');\n" ++
    "      imgs.replaceChildren(...s.image_queue.map((u, i) => \x7b const im = " ++
    "document.createElement('img'); im.src = u; im.alt = 'Output image ' + (i + 1); return " ++
    "im; \x7d));\n" ++
    "    \x7d;\n" ++
    "  </script>\n" ++
    "</body>\n" ++
    "</html>\n")

/-- The page with a label and a colour. -/
def document (label color : Text) : Text := top ++ escape color ++ middle ++ escape label ++ bottom

end Page

end PushButton
