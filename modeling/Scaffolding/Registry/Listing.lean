import Scaffolding.Registry.Manifest
import Scaffolding.Remote.Fetch
import Scaffolding.Template.Basic
import Scaffolding.Version.Notice

/-!
# Listings

A listing is what a registry offers: the templates that can be built, in the order of the registry,
and what was left out with the reason. Every entry ends up in exactly one place: entries that cannot
be read are left out first, templates of unknown kinds after them.
-/

set_option autoImplicit false

namespace Scaffolding

/-- What was left out of a listing, and why. -/
structure Listing.Skipped where
  name : String
  failure : Failure
  deriving DecidableEq, Repr

/-- The templates of a registry. -/
structure Listing where
  templates : List Template
  skipped : List Listing.Skipped
  /-- What there is to say about the version of the registry. -/
  notice : Option String
  deriving DecidableEq, Repr

namespace Listing

/-- The template of a descriptor, if it can be built. -/
def template? (d : Template.Descriptor) : Option Template :=
  (Template.ofDescriptor d).toOption

/-- Why the template of a descriptor is left out, if it is. -/
def skipped? (d : Template.Descriptor) : Option Skipped :=
  match Template.ofDescriptor d with
  | .ok _ => none
  | .error f => some ⟨d.name, f⟩

def ofDescriptors (ds : List Template.Descriptor) : Listing :=
  ⟨ds.filterMap template?, ds.filterMap skipped?, none⟩

/-- The descriptor of an entry that could be read. -/
def descriptor? (branch : String) :
    Except (String × Yaml.Mismatch) Registry.Entry → Option Template.Descriptor
  | .ok e => some (e.descriptor branch)
  | .error _ => none

/-- Why an entry that could not be read is left out. -/
def malformed? : Except (String × Yaml.Mismatch) Registry.Entry → Option Skipped
  | .ok _ => none
  | .error (name, e) =>
    some ⟨name, .retrieval ("registry entry '" ++ name ++ "'") e.message⟩

/-- How to get a newer version of the program. -/
def upgradeCommand : String := "cargo install blueprint --force"

/-- What there is to say about the version of a registry. -/
def noticeOf (m : Registry.Manifest) : Option String :=
  m.versionText?.bind fun found => Version.notice? Version.understood found upgradeCommand

/-- The listing of a registry whose templates are on a branch unless they name another one. -/
def ofManifest (branch : String) (m : Registry.Manifest) : Listing :=
  let entries := m.entries
  let known := ofDescriptors (entries.filterMap (descriptor? branch))
  { known with
    skipped := entries.filterMap malformed? ++ known.skipped
    notice := noticeOf m }

end Listing

end Scaffolding

namespace Scaffolding.Registry

/-!
## Loading the registry

The registry is fetched and listed. Only a document that cannot be fetched, or is no registry at
all, is a failure; what is wrong with one entry is part of the listing.
-/

/-- The manifest in the text of a document, which was at a path. -/
def manifestOf (path text : String) : Except Failure Manifest :=
  match Manifest.read text with
  | .ok m => .ok m
  | .error e => .error (.retrieval ("registry " ++ path) e.message)

def load (source : Source) : Attempt Listing := do
  let text ← Remote.fetch source source.owner source.repository source.path source.branch
  match manifestOf source.path text with
  | .ok m => return Listing.ofManifest source.branch m
  | .error f => throw f

end Scaffolding.Registry
