import HtmlViews.Failure
import HtmlViews.Text.Escape

/-!
# Error fragments

A part of a page that cannot be rendered is replaced by a fragment of HTML.

The fragment is one element of a class of its own, so that pages can style it. While debugging it
carries the kind of failure as an attribute and all messages as text; the texts may hold what
visitors or templates have written, and are escaped, while the kinds are fixed words that need no
escaping. Otherwise it says the same for all failures, so that nothing of the site is told to
visitors.

* **fragment** — the replacement: in detail while debugging, otherwise a general sentence.
* **Failure.fullMessage** — a failure with all that led to it, in one line.
-/

namespace HtmlViews

/-- The sentence shown to visitors in the place of a part that failed. -/
def genericSentence : String :=
  "This part of the page could not be rendered."

/-- The description of a failure followed by those of the failures behind it. -/
def Failure.fullMessage (f : Failure) : String :=
  f.sources.foldl (fun text source => text ++ ": " ++ source) f.message

/-- The HTML that stands for a failed part. With `debug` it names the kind of failure and tells all
of its messages, escaped. -/
def fragment (f : Failure) (debug : Bool) : Text :=
  if debug then
    "<div class=\"vista-error\" data-kind=\"".toList ++ f.kindName.toList
      ++ "\"><strong>".toList ++ f.kindName.toList ++ "</strong> ".toList
      ++ escape f.fullMessage.toList ++ "</div>".toList
  else
    "<div class=\"vista-error\">".toList ++ genericSentence.toList ++ "</div>".toList

end HtmlViews
