import HtmlViews.Engine.Loading
import HtmlViews.Engine.View

/-!
# Sites

A site serves requests: an engine with the files it reads, and the sessions of the visitors.

A request is a computation on a session, so one definition serves every kind of request: the session
is looked up, the request is run with it, and what is left of it is put back. All visitors share the
engine, and no request changes it. A visitor without a session gets the one of the engine, which is
its own or one of the sessions of the visitors that it was given.

Loading from a glob makes a new engine, and the site keeps the old one if that fails; a reload
changes the engine it has, also when it fails.

* **Site** — everything that one request leaves for the next.
* **Site.session**, **Site.setSession** — the session of a visitor, or the one of the engine for a
  visitor who has none.
* **Site.serve** — a request answered.
* **Site.loadFrom**, **Site.reload** — templates read from files.
* **Site.choose** — the engine given the session of a visitor.
-/

namespace HtmlViews

/-- Everything that one request leaves for the next. -/
structure Site where
  /-- The templates and settings. -/
  engine : Engine := .empty
  /-- The files that templates are read from. -/
  files : Files
  /-- The sessions of the visitors by their names. -/
  sessions : Dict Session := .empty
  /-- The session that a new engine has. -/
  fresh : Session
  /-- The session of the engine, unless it was given one of the visitors' sessions. -/
  own : Session := fresh
  /-- The name of the visitor's session that the engine was given. -/
  chosen : Option String := none

namespace Site

/-- The visitor whose session is used for a visitor: the one who is asked for, or else the one whose
session the engine was given. -/
def owner (site : Site) (visitor : Option String) : Option String :=
  visitor.filter site.sessions.contains <|> site.chosen

/-- The session of a visitor; for a visitor who has none, the one of the engine. -/
def session (site : Site) (visitor : Option String) : Session :=
  match site.owner visitor with
  | some name => (site.sessions.find? name).getD site.own
  | none => site.own

/-- The site with the session of a visitor replaced, or the one of the engine for a visitor who has
none. -/
def setSession (site : Site) (visitor : Option String) (session : Session) : Site :=
  match site.owner visitor with
  | some name => { site with sessions := site.sessions.insert name session }
  | none => { site with own := session }

/-- The site after the session of the engine was replaced by the one of a visitor who has one. -/
def choose (site : Site) (name : String) : Site :=
  if site.sessions.contains name then { site with chosen := some name } else site

/-- A request answered with the session of a visitor, or with the one that the engine has. -/
def serve {α : Type} (site : Site) (visitor : Option String) (request : Engine → Request α) :
    Logged (Except Failure α) × Site :=
  let (result, visit) :=
    StateT.run (ExceptT.run (request site.engine)) { session := site.session visitor }
  (⟨result, visit.log⟩, site.setSession visitor visit.session)

/-- The site with a new engine for the files that a glob describes. If they cannot be loaded, the
site stays as it is. -/
def loadFrom (site : Site) (glob : Text) : Logged (Except Failure Unit) × Site :=
  let made := Engine.new site.files glob
  match made.value with
  | .ok engine =>
    (⟨.ok (), made.log⟩, { site with engine, own := site.fresh, chosen := none })
  | .error f => (⟨.error f, made.log⟩, site)

/-- The site with the templates of its engine read once more. -/
def reload (site : Site) : Logged (Except Failure Unit) × Site :=
  let done := site.engine.reload site.files
  (⟨done.value.1, done.log⟩, { site with engine := done.value.2 })

/-- The site with the template in a file. -/
def addFile (site : Site) (name : Option String) (path : Text) : Except Failure Site := do
  let engine ← site.engine.addFile site.files name path
  pure { site with engine }

end Site

end HtmlViews
