import QueryHighlight.Markup.Renderer
import QueryHighlight.Markup.Stylesheet

/-!
# Preview pages

A page is a whole document that shows one highlighted query, with the
stylesheet for its classes.
-/

namespace QueryHighlight

/-- The title of a page that is given no other. -/
def defaultTitle : String :=
  "Query preview"

/-- The document that shows a text under a title. -/
def Renderer.page (renderer : Renderer) (text title : String) : String :=
  "<!DOCTYPE html>\n" ++
  "<html>\n" ++
  "<head>\n" ++
  "<meta charset=\"utf-8\">\n" ++
  "<title>" ++ escape title ++ "</title>\n" ++
  "<style>\n" ++ stylesheet renderer.classPrefix [] ++ "\n</style>\n" ++
  "</head>\n" ++
  "<body>\n" ++
  "<div class=\"" ++ previewClass ++ "\">" ++ renderer.highlight text ++ "</div>\n" ++
  "</body>\n" ++
  "</html>\n"

end QueryHighlight
