import DirectoryBrowser.Url.Parse

/-!
# Reading URLs

What the storage backends take from a URL: the path of a local file, the
fields of a query, and the login in the clear.
-/

namespace DirectoryBrowser.Url

open Text

def segments? (url : Url) : Option (List (List Char)) :=
  match url.path with
  | .segments names => some names
  | .whole _ => none

/-- Local path of a file URL. Other machines have no place in the local file system. -/
def filePath? (url : Url) : Option String :=
  match url.host, url.segments? with
  | .absent, some (name :: names) | .empty, some (name :: names) =>
    some (textLossy ((name :: names).flatMap fun segment ↦
      '/'.toUInt8 :: percentDecodeBytes (utf8 segment)))
  | _, _ => none

def formDecode (text : List Char) : String :=
  textLossy (percentDecodeBytes (utf8 (text.map fun c ↦ if c == '+' then ' ' else c)))

/-- Fields of a query in their order. -/
def queryPairs (url : Url) : List (String × String) :=
  ((splitOn '&' (url.query.getD [])).filter (fun field ↦ !field.isEmpty)).map fun field ↦
    let (key, value) := (cutWhere? (· == '=') field).getD (field, [])
    (formDecode key, formDecode value)

def decoded? (text : List Char) : Option String :=
  text? (percentDecodeBytes (utf8 text))

/-- Host as it is dialled; addresses keep their brackets. -/
def hostText? (url : Url) : Option String :=
  if url.host.isNamed then some (String.ofList url.host.text) else none

end DirectoryBrowser.Url
