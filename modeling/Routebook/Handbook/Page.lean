/-
  Routebook.Handbook.Page

  The page around a handbook: a template in which every placeholder is
  replaced by the handbook's text.
-/
namespace Routebook.Handbook

/-- Replace every occurrence of a non-empty pattern, from the left; `skip`
counts the characters of an occurrence that are still to be passed over. -/
def replaceFrom (pattern replacement : List Char) : Nat → List Char → List Char
  | _, [] => []
  | skip + 1, _ :: rest => replaceFrom pattern replacement skip rest
  | 0, c :: rest =>
    if pattern.isPrefixOf (c :: rest) then
      replacement ++ replaceFrom pattern replacement (pattern.length - 1) rest
    else c :: replaceFrom pattern replacement 0 rest

/-- What a template holds in place of the handbook. -/
def placeholder : String := "\x7b$rawMd\x7d"

/-- The lines of the template that is used if no other is given. -/
def templateLines : List String :=
  ["<!DOCTYPE html>",
   "<html lang=\"en\">",
   "<head>",
   "    <meta charset=\"UTF-8\">",
   "    <meta name=\"viewport\" content=\"width=device-width, initial-scale=1.0\">",
   "    <title>API Documentation</title>",
   "    <script src=\"https://cdn.jsdelivr.net/npm/marked/marked.min.js\"></script>",
   "    <style>",
   "        body \x7b font-family: -apple-system, \"Segoe UI\", Helvetica, Arial, sans-serif; " ++
     "margin: 0 auto; max-width: 960px; padding: 24px; color: #24292e; \x7d",
   "        table \x7b border-collapse: collapse; width: 100%; margin-bottom: 16px; \x7d",
   "        th, td \x7b border: 1px solid #dfe2e5; padding: 6px 13px; text-align: left; \x7d",
   "        pre \x7b background: #f6f8fa; padding: 12px; overflow: auto; \x7d",
   "        .group-title \x7b border-bottom: 2px solid #0366d6; \x7d",
   "        .h4-span \x7b font-weight: normal; margin-left: 8px; \x7d",
   "        .deprecated \x7b color: #d73a49; margin-left: 6px; \x7d",
   "        .method-hr \x7b border: 0; border-top: 3px double #dfe2e5; \x7d",
   "    </style>",
   "</head>",
   "<body>",
   "<textarea id=\"raw-md\" style=\"display: none\">\x7b$rawMd\x7d</textarea>",
   "<div id=\"content\"></div>",
   "<script>",
   "    document.getElementById(\"content\").innerHTML = " ++
     "marked.parse(document.getElementById(\"raw-md\").value);",
   "</script>",
   "</body>",
   "</html>",
   ""]

/-- The template that is used if no other is given. -/
def defaultTemplate : String := "\n".intercalate templateLines

/-- The page of a handbook. -/
def page (template markdown : String) : String :=
  String.ofList (replaceFrom placeholder.toList markdown.toList 0 template.toList)

end Routebook.Handbook
