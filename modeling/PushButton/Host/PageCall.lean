import PushButton.Json.Value
import PushButton.Settings.Basic

/-!
# Calls to a browser

A surface in a browser is a page. To open it a driver is started, which launches a browser, in which
a page is made whose address is answered by the program itself. In the page small programs are
evaluated, and the dialogs that they raise are accepted or dismissed.
-/

namespace PushButton

/-- A small program that is evaluated in a page. -/
inductive Script where
  /-- Shows a message. -/
  | alert (message : Text)
  /-- Asks a question. -/
  | prompt (message : Text)
  /-- Closes the window. -/
  | close
  /-- Shows a state of the surface. -/
  | render (state : Json)
deriving Repr

namespace Script

/-- The text of a program. -/
def text : Script → Text
  | .alert _ => "(m) => window.alert(m)"
  | .prompt _ => "(m) => window.prompt(m)"
  | .close => "() => window.close()"
  | .render _ => "(s) => window.__render && window.__render(s)"

/-- What a program is applied to. -/
def argument : Script → Json
  | .alert message => .text message
  | .prompt message => .text message
  | .close => .null
  | .render state => state

end Script

/-- What a page gets when it asks for its address. -/
structure Response where
  /-- The status. -/
  status : Nat
  /-- The type of the contents. -/
  contentType : Text
  /-- The contents. -/
  body : Text
deriving DecidableEq, Repr

/-- A call to a driver, a browser, a page or a dialog. -/
inductive PageCall where
  /-- The driver is started. -/
  | startDriver
  /-- A browser is launched. -/
  | launch (kind : BrowserKind) (options : Json)
  /-- A context for pages is made. -/
  | newContext
  /-- A page is made. -/
  | newPage
  /-- The program answers all addresses that a pattern covers. -/
  | route (pattern : Text)
  /-- The program answers the dialogs of the page. -/
  | listen
  /-- The page goes to an address, and is ready when its document is. -/
  | goto (address : Text)
  /-- The page is reloaded, and is ready when its document is. -/
  | reload
  /-- A program is evaluated in the page. -/
  | evaluate (script : Script)
  /-- The page gets what it has asked for. -/
  | fulfill (r : Response)
  /-- A dialog is accepted, with an answer where it asks a question. -/
  | accept (answer : Option Text)
  /-- A dialog is dismissed. -/
  | dismiss
  /-- The browser is closed. -/
  | closeBrowser
  /-- The driver is stopped. -/
  | stopDriver
deriving Repr

end PushButton
