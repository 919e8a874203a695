/-!
# HTML escaping

The five characters that carry meaning in HTML text and attribute values are written as entities,
each in one pass, so that an entity that is produced is never escaped again.
-/

namespace Stencil.Text

def escapeHtmlChar (c : Char) : List Char :=
  match c with
  | '&' => "&amp;".toList
  | '<' => "&lt;".toList
  | '>' => "&gt;".toList
  | '"' => "&quot;".toList
  | '\'' => "&#39;".toList
  | _ => [c]

/-- `s` with every character in its HTML form. -/
def escapeHtml (s : String) : String :=
  String.ofList (s.toList.flatMap escapeHtmlChar)

end Stencil.Text
