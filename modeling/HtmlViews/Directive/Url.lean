import HtmlViews.Config
import HtmlViews.Directive.Argument
import HtmlViews.Text.Piece

/-!
# URLs

`@assets('path')` and `@images('path')` stand for the URLs of files of the site.

A URL is put together from the base address, a folder and the path in the directive, with one slash
between them; nothing is escaped or looked up, and whether there is such a file does not matter.
Both directives read settings only, so they can neither fail nor change the session.

* **Url.resolve** — the URL of a file.
* **Url.expandAssets**, **Url.expandImages** — a text with these directives replaced.
-/

namespace HtmlViews.Url

/-- The URL of the file at `path` in a folder below a base address. Slashes at the beginning of the
path do not count. -/
def resolve (base folder path : Text) : Text :=
  let path := path.dropWhile Config.isSlash
  if folder = [] then base ++ '/' :: path else base ++ '/' :: folder ++ '/' :: path

/-- A text with the URLs of public files in the place of their directives. -/
def expandAssets (config : Config) : Text → Text :=
  Text.expand (argumentReader "@assets(".toList)
    (resolve config.baseUrl config.publicPath)

/-- A text with the URLs of images in the place of their directives. -/
def expandImages (config : Config) : Text → Text :=
  Text.expand (argumentReader "@images(".toList)
    (resolve config.baseUrl config.imagesPath)

end HtmlViews.Url
