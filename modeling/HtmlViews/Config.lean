import HtmlViews.Dict
import HtmlViews.Text.Quote

/-!
# Settings

Settings are texts under names, usually read from lines of the form `NAME=value`.

A line is split at its first `=`, so values may hold further ones. Nothing is escaped and no line
goes on in the next one; quotes around a value are taken off in any number. Lines that make no
setting are passed over without an error. A later line replaces an earlier one with the same name,
and so does a setting that is made afterwards.

The base address is put together from the address and the number of the site, and ends without a
slash, so that paths can be put behind it with one slash between them.

* **Config** — the settings.
* **Config.parse** — the settings that the lines of a text make.
* **Config.baseUrl**, **Config.publicPath**, **Config.imagesPath**, **Config.isDebug** — the
  settings that directives use, with their defaults.
* **Config.set**, **Config.merge** — settings made or put over others.
-/

namespace HtmlViews

/-- Texts under names. -/
structure Config where
  /-- The settings that were made. -/
  values : Dict String
deriving Repr

namespace Config

/-- No settings at all: every look-up gives its default. -/
def empty : Config :=
  ⟨.empty⟩

instance : Inhabited Config :=
  ⟨empty⟩

/-! ## Reading lines -/

/-- The setting that a line makes. Blank lines, lines that begin with `#` and lines without `=` make
none. The name stands before the first `=`; quotes around the value do not belong to it, and a
carriage return at the end of the line is one of the blanks around it. -/
def setting? (line : Text) : Option (String × String) :=
  let line := Text.trim line
  if line = [] ∨ line.head? = some '#' then none
  else
    (Text.cut? ['='] line).map fun (name, value) =>
      (String.ofList (Text.trim name), String.ofList (Text.strip isQuote (Text.trim value)))

/-- The settings that the lines of a text make; of two lines with one name the later counts. -/
def parse (s : Text) : Config :=
  ⟨.ofList ((Text.splitOn '\n' s).filterMap setting?)⟩

/-- The settings with the given names and values. -/
def ofVariables (settings : List (String × String)) : Config :=
  ⟨.ofList settings⟩

/-! ## Looking up and changing -/

/-- The value under a name, or the default. -/
def get (c : Config) (name default : String) : String :=
  (c.values.find? name).getD default

/-- The settings with one made or replaced. -/
def set (c : Config) (name value : String) : Config :=
  ⟨c.values.insert name value⟩

/-- The settings with those of another put over them. -/
def merge (c d : Config) : Config :=
  ⟨c.values.merge d.values⟩

/-- Whether the same names have the same values. -/
def same (c d : Config) : Bool :=
  c.values.entries = d.values.entries

/-! ## The settings of directives -/

/-- Whether a character is the slash that separates the parts of a path. -/
def isSlash (c : Char) : Bool :=
  c = '/'

/-- The address that URLs begin with: the one of the site, with the number that it listens on behind
a colon and without slashes at the end. An empty number is left out. -/
def baseUrl (c : Config) : Text :=
  let url := Text.dropEnd isSlash (c.get "APP_URL" "http://localhost").toList
  let number := (c.get "APP_PORT" "8000").toList
  Text.dropEnd isSlash (if number = [] then url else url ++ ':' :: number)

/-- The path of the public files below the base address. -/
def publicPath (c : Config) : Text :=
  Text.strip isSlash (c.get "PUBLIC_PATH" "src/view/public").toList

/-- The path of the images below the base address. -/
def imagesPath (c : Config) : Text :=
  Text.strip isSlash (c.get "IMAGES_PATH" "src/view/public/images").toList

/-- Whether failures are shown in detail: always, unless the setting is one of the four words for
no, in any case of letters. -/
def isDebug (c : Config) : Bool :=
  let setting := (c.get "APP_DEBUG" "true").toList.map Char.toLower
  !(["false", "0", "off", "no"].any fun word => setting = word.toList)

end Config

end HtmlViews
