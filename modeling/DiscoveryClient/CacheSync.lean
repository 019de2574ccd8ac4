import DiscoveryClient.Cache

namespace DiscoveryClient

/-- The content of `internal.json`: entries as the decoder returns them. Times are points on one
clock. -/
structure Referrals where
  entries : List Entry
  creationTime : Int
deriving DecidableEq

/-- What stands at the path of `internal.json`. -/
inductive InternalFile
  | missing
  | directory
  | empty
  | malformed
  | referrals (refs : Referrals)
deriving DecidableEq

structure DirEntry where
  name : GoString
  isDir : Bool
  file : UserFile

/-- The user directory at a start; `none` stands for a failing `Stat` or `ReadDir`. -/
structure UserDir where
  modTime : Option Int
  files : Option (List DirEntry)

/-- The file a successful `createReferralsFile` renames into place. -/
def createReferralsFile (c : Cache) (now : Int) : InternalFile :=
  .referrals ⟨c.cacheEntries.map fun e => e.entry.throughJson, now⟩

/-- The entries of `internal.json` when they are the ones to start from, else `none`. -/
def useInternalJson (internal : InternalFile) (userDir : UserDir) :
    Except CacheError (Option (List Entry)) :=
  match internal with
  | .missing | .directory | .empty => .ok none
  | .malformed => .error .internalJson
  | .referrals refs =>
    if refs.entries = [] then .ok none
    else
      match userDir.modTime with
      | none => .error .statUserDir
      | some lastUserUpdateTime =>
        if refs.creationTime < lastUserUpdateTime then .ok none else .ok (some refs.entries)

/-- The loop of `sync` over the entries of `internal.json`. -/
def syncEntries : Cache → List Entry → List ClientClusterPair → Outcome
  | c, [], changed => ⟨c, changed, false, none⟩
  | c, e :: rest, changed =>
    match e.verify with
    | .error msg => ⟨c, [], false, some (.verify msg)⟩
    | .ok () =>
      match addEntry c e with
      | (c, .error _) => syncEntries c rest changed
      | (c, .ok pair) => syncEntries c rest (if pair.isEmpty then changed else changed ++ [pair])

/-- The loop of `sync` over the user's files; a file that fails to load is skipped. -/
def syncFiles (adjustTraddr : GoString → Bool) (order : GoString → RangeOrder Entry) :
    Cache → List DirEntry → List ClientClusterPair → Outcome
  | c, [], changed => ⟨c, changed, true, none⟩
  | c, f :: rest, changed =>
    if f.isDir then syncFiles adjustTraddr order c rest changed
    else
      match fileAdded adjustTraddr (order f.name) c f.file with
      | (c, .error _) => syncFiles adjustTraddr order c rest changed
      | (c, .ok pairs) => syncFiles adjustTraddr order c rest (changed ++ pairs)

def sync (adjustTraddr : GoString → Bool) (order : GoString → RangeOrder Entry) (c : Cache)
    (internal : InternalFile) (userDir : UserDir) : Outcome :=
  match useInternalJson internal userDir with
  | .error err => ⟨c, [], false, some err⟩
  | .ok (some jsonEntries) => syncEntries c jsonEntries []
  | .ok none =>
    match userDir.files with
    | none => ⟨c, [], false, some .readUserDir⟩
    | some userFiles => syncFiles adjustTraddr order c userFiles []

end DiscoveryClient
