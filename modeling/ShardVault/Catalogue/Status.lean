import ShardVault.Text.Basic

namespace ShardVault

/-- Where a file stands between its upload and its distribution. -/
inductive FileStatus
  | pending
  | encrypting
  | encrypted
  | distributing
  | distributed
  | error
  deriving DecidableEq, Repr, Inhabited

namespace FileStatus

def all : List FileStatus :=
  [pending, encrypting, encrypted, distributing, distributed, error]

def name : FileStatus → Text
  | pending => "pending"
  | encrypting => "encrypting"
  | encrypted => "encrypted"
  | distributing => "distributing"
  | distributed => "distributed"
  | error => "error"

def ofName? (t : Text) : Option FileStatus :=
  all.find? fun status => status.name = t

/-- A file moves forward one status at a time, or from any status but the last to the error. -/
def canMoveTo : FileStatus → FileStatus → Bool
  | pending, encrypting => true
  | encrypting, encrypted => true
  | encrypted, distributing => true
  | distributing, distributed => true
  | error, _ => false
  | _, error => true
  | _, _ => false

def targets (status : FileStatus) : List FileStatus :=
  all.filter status.canMoveTo

def isTerminal (status : FileStatus) : Bool :=
  status.targets.isEmpty

def isReady : FileStatus → Bool
  | encrypted | distributing | distributed => true
  | pending | encrypting | error => false

theorem ofName?_name (status : FileStatus) : ofName? status.name = some status := by
  cases status <;> decide

end FileStatus

end ShardVault
