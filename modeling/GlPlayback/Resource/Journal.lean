import GlPlayback.Resource.Record

/-!
The records that the host was told of, in their JSON form.
-/
namespace GlPlayback

structure Journal where
  /-- Every announcement, the latest last. -/
  entries : List (Handle × Json) := []

namespace Journal

def size (j : Journal) : Nat :=
  j.entries.length

def publish (j : Journal) (h : Handle) (record : ResourceRecord) : Journal :=
  ⟨j.entries ++ [(h, record.toJson)]⟩

/-- What was last told of a resource. -/
def latest? (j : Journal) (h : Handle) : Option Json :=
  j.entries.reverse.lookup h

end Journal

end GlPlayback
