import IndexCoordinator.Filter
import IndexCoordinator.Id

/-!
# Descriptors

The definition of one index as an extension contributes it.
-/

namespace IndexCoordinator

/-- the definition of one index; unless stated otherwise it reads file content -/
structure IndexDescriptor where
  id : IndexId
  /-- version of the storage format -/
  version : UInt32 := 0
  contentDependent : Bool := true
  indexesDirectories : Bool := false
  /-- file types that the index takes whatever their size -/
  sizeLimitExempt : List FileType := []
  inputFilter : InputFilter := .any

namespace IndexDescriptor

def withVersion (d : IndexDescriptor) (version : UInt32) : IndexDescriptor := { d with version }

def withContentDependent (d : IndexDescriptor) (flag : Bool) : IndexDescriptor :=
  { d with contentDependent := flag }

def withDirectories (d : IndexDescriptor) (flag : Bool) : IndexDescriptor :=
  { d with indexesDirectories := flag }

/-- add exempt file types after those that are there -/
def withSizeLimitExempt (d : IndexDescriptor) (types : List FileType) : IndexDescriptor :=
  { d with sizeLimitExempt := d.sizeLimitExempt ++ types }

def withInputFilter (d : IndexDescriptor) (filter : InputFilter) : IndexDescriptor :=
  { d with inputFilter := filter }

end IndexDescriptor

end IndexCoordinator
