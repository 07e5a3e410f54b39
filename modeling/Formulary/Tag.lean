import Formulary.Text.Quoted

namespace Formulary

abbrev Tag := List UInt8

namespace Tag

def ofString (s : String) : Tag := Text.encodeUtf8 s

/-- The tag that a string literal denotes. -/
def ofLiteral? (literal : String) : Option Tag := Text.unquote? literal.toList

/-- The text that a tag encodes, if it encodes one. -/
def text? (tag : Tag) : Option String := (Text.decodeUtf8? tag).map String.ofList

/-- The literal that denotes a tag. -/
def literal (tag : Tag) : String := Text.quoteBytes tag

end Tag

end Formulary
