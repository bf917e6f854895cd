import ShardKeeper.Process.Role

/-!
# Process tables

## Main definitions

* `ProcessTable` — the processes of a machine, and what was done to them
* `ProcessTable.add` — a new process, with a number of 32 bits
* `ProcessTable.terminate` — a request to end, or a forced end
* `ProcessTable.launch` — a new process for a role
* `ProcessTable.owned` — the processes that play a role
-/

namespace ShardKeeper

/-- A running process. -/
structure RunningProcess where
  pid : Nat
  command : String
deriving DecidableEq

/-- A signal sent to a process number. -/
structure Signal where
  pid : Nat
  force : Bool
deriving DecidableEq

/-- The processes of a machine, in the order in which they started. -/
structure ProcessTable where
  processes : List RunningProcess
  /-- Every signal sent so far. -/
  signals : List Signal
  /-- The roles of every launch tried so far. -/
  launches : List String
  /-- The number of the next process, before it is cut to 32 bits. -/
  nextPid : Nat
  /-- Whether processes take no notice of a request to end. -/
  stubborn : Bool
  /-- Whether the machine refuses to start processes. -/
  refusing : Bool
deriving DecidableEq

namespace ProcessTable

/-- The number of the first process. -/
def firstPid : Nat := 1000

/-- How many numbers there are. After the greatest of them zero is the next. -/
def pidCount : Nat := Nat.pow 2 32

/-- A machine without processes. -/
def empty (stubborn refusing : Bool) : ProcessTable := ⟨[], [], [], firstPid, stubborn, refusing⟩

/-- How many processes were ever started. -/
def started (t : ProcessTable) : Nat := t.nextPid - firstPid

/-- A new process, and its number. -/
def add (t : ProcessTable) (command : String) : ProcessTable × Nat :=
  let pid := t.nextPid % pidCount
  ({ t with processes := t.processes ++ [⟨pid, command⟩], nextPid := t.nextPid + 1 }, pid)

/-- The table after all processes have vanished. -/
def clear (t : ProcessTable) : ProcessTable := { t with processes := [] }

/-- Sends a signal, and tells whether there was a process to get it. -/
def terminate (t : ProcessTable) (pid : Nat) (force : Bool) : ProcessTable × Bool :=
  let found := t.processes.any (·.pid == pid)
  let processes :=
    if force || !t.stubborn then t.processes.eraseP (·.pid == pid) else t.processes
  ({ t with signals := t.signals ++ [⟨pid, force⟩], processes }, found)

/-- Sends a signal to each of several processes. -/
def terminateAll (t : ProcessTable) (pids : List Nat) (force : Bool) : ProcessTable :=
  pids.foldl (fun t pid => (t.terminate pid force).1) t

/-- The reason a machine gives that refuses to start a process. -/
def refusal : String := "launch refused"

/-- Tries to start a process for a role, and tells whether it came to that. -/
def launch (t : ProcessTable) (role : Role) : ProcessTable × Bool :=
  let t := { t with launches := t.launches ++ [role.name] }
  if t.refusing then (t, false)
  else ((t.add (role.signature ++ " --role " ++ role.name)).1, true)

/-- The numbers of the processes that play a role. -/
def owned (t : ProcessTable) (role : Role) : List Nat :=
  (t.processes.filter fun p => role.owns p.command).map (·.pid)

end ProcessTable

end ShardKeeper
