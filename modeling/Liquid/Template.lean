import Liquid.Source
import Liquid.Reader
import Liquid.Render
import Liquid.Datum

/-!
# Templates

A template is read once and rendered any number of times, against a value, against structured data,
or within a context that the caller keeps.
-/

namespace Liquid

/-- A template that has been read. -/
structure Template where
  root : List Node
  options : Options

namespace Template

def parse (registry : Registry) (options : Options) (source : String) : Except Error Template :=
  match Liquid.parse registry options (.ofSource source) with
  | .ok root => .ok ⟨root, options⟩
  | .error e => .error e

/-- Renders within a context: the text or the fatal error, and the context that is left. -/
def renderWith (t : Template) (ctx : Context) : Except Error String × Context :=
  renderFrom (renderAll t.root) ctx

/-- Renders against a value in a fresh context. -/
def render (t : Template) (root : Value) : Except Error String × Context :=
  t.renderWith (.new root t.options)

/-- Renders against structured data: the text, and the errors recovered on the way. -/
def renderDatum (t : Template) (d : Datum) : Except Error (String × List Error) :=
  match d.toValue with
  | .error e => .error e
  | .ok root =>
    match t.render root with
    | (.ok text, ctx) => .ok (text, ctx.errors)
    | (.error e, _) => .error e

end Template

/-- Reads a template with the default settings and renders it against structured data. -/
def renderTemplate (registry : Registry) (source : String) (d : Datum) :
    Except Error (String × List Error) :=
  match Template.parse registry {} source with
  | .ok t => t.renderDatum d
  | .error e => .error e

end Liquid
