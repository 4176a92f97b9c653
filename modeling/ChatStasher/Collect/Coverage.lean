import ChatStasher.Collect.FactSpec

/-! What the coverage test answers for the fact of one directory on any other directory. -/
namespace ChatStasher

variable {H : Sha256}

def stageEntries (d : SessionDir) : List (ℕ × Bytes) :=
  (sortedEntries d).map fun e => (e.1, e.2.bytes)

section Fact
variable {part entries : List (ℕ × Bytes)}

end Fact

section Covers
variable {d : SessionDir} {part : List (ℕ × Bytes)}

end Covers

section Grows
variable {files files' : List (ℕ × StoredFile)}

end Grows

/-- What the shards of a stage show is led by what those of another one show. -/
def Extends (d d' : SessionDir) : Prop := stageEntries d <+: stageEntries d'

end ChatStasher
