import DocSite.Text.Quoted
/-! Named resources found in a list of directories. The answer for a name, also
that there is none, is kept until something is registered under the name. -/
namespace DocSite.Template

/-- What one directory answers for a name. -/
inductive Probe (α : Type) where
  | hit (resource : α)
  | missing
  | unreadable

structure Cache (α : Type) where
  /-- The directory added last comes first. -/
  searchPaths : List String := []
  /-- The answers so far, one for each name. -/
  entries : List (String × Option α) := []

instance : Inhabited (Cache α) := ⟨{}⟩

namespace Cache

variable {α : Type}

def addSearchPath (c : Cache α) (path : String) : Cache α :=
  { c with searchPaths := path :: c.searchPaths }

def find? (name : String) : List (String × Option α) → Option (Option α)
  | [] => none
  | (n, answer) :: rest => if n = name then some answer else find? name rest

def put (name : String) (answer : Option α) : List (String × Option α) → List (String × Option α)
  | [] => [(name, answer)]
  | (n, old) :: rest =>
    if n = name then (n, answer) :: rest else (n, old) :: put name answer rest

/-- The answer kept for a name. -/
def known? (c : Cache α) (name : String) : Option (Option α) := find? name c.entries

def register (c : Cache α) (name : String) (resource : α) : Cache α :=
  { c with entries := put name (some resource) c.entries }

/-- Asks the directories in turn up to the first hit. Also says which were asked. -/
def search (probe : String → Probe α) : List String → Option α × List String
  | [] => (none, [])
  | dir :: rest =>
    match probe dir with
    | .hit resource => (some resource, [dir])
    | .missing | .unreadable =>
      let (found, asked) := search probe rest
      (found, dir :: asked)

structure Lookup (α : Type) where
  answer : Option α
  asked : List String
  cache : Cache α

/-- Directories are asked only for a name without a kept answer. -/
def get (c : Cache α) (probe : (dir name : String) → Probe α) (name : String) : Lookup α :=
  match c.known? name with
  | some answer => ⟨answer, [], c⟩
  | none =>
    let (found, asked) := search (probe · name) c.searchPaths
    ⟨found, asked, { c with entries := put name found c.entries }⟩

/-- How many names have a kept answer. -/
def size (c : Cache α) : Nat := c.entries.length

/-- The cache as a line of text for people. -/
def describe (c : Cache α) : String :=
  let paths := ", ".intercalate (c.searchPaths.map Text.Quoted.quote)
  "ResourceCache \x7b search_paths: [" ++ paths ++ "], entries: " ++ toString c.size ++ " \x7d"

theorem find?_put (name n : String) (answer : Option α) (entries : List (String × Option α)) :
    find? n (put name answer entries) = if n = name then some answer else find? n entries := by
  induction entries with
  | nil => simp [put, find?, eq_comm]
  | cons p rest ih =>
      obtain ⟨m, v⟩ := p
      by_cases hm : m = name
      · subst hm
        by_cases h : n = m
        · simp [put, find?, h]
        · simp [put, find?, h, Ne.symm h]
      · by_cases hn : m = n
        · subst hn
          simp [put, find?, hm]
        · simp [put, find?, hm, hn, ih]

@[simp] theorem known?_register (c : Cache α) (name n : String) (resource : α) :
    (c.register name resource).known? n = if n = name then some (some resource) else c.known? n :=
  find?_put name n (some resource) c.entries

@[simp] theorem known?_addSearchPath (c : Cache α) (path n : String) :
    (c.addSearchPath path).known? n = c.known? n := rfl

/-- After a lookup the answer is kept. -/
theorem known?_get (c : Cache α) (probe : String → String → Probe α) (name : String) :
    (c.get probe name).cache.known? name = some (c.get probe name).answer := by
  unfold get
  cases h : c.known? name with
  | some answer => simpa using h
  | none => simp [known?, find?_put]

end Cache
end DocSite.Template
