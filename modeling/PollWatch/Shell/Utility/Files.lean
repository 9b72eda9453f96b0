import PollWatch.Shell.Pattern
import PollWatch.Shell.Utility.Calendar
/-!
# Utilities on files

Making, dating, moving, removing and listing files.
-/

namespace PollWatch.Shell.Utility

/-- The wording of a refusal. -/
def because (n : Errno) : String := ": " ++ Errno.wording n.number

/-- Make one change after another; each that is refused gives a message. -/
def forEach (c : Call) (ws : List Chars) (change : Host → Chars → Except String Host) : Ending :=
  ws.foldl (fun e w =>
    match change e.host w with
    | .ok h => { e with host := h }
    | .error m => e.fault c m) c.quiet

/-- Leave out long options, which only add words to messages or choose defaults. -/
def withoutLong (ws : List Chars) : List Chars :=
  ws.filter fun w => !("--".toList.isPrefixOf w) || w.length ≤ 2

/-- Set the times of files, and make those that are missing. -/
def touch (c : Call) : Ending :=
  let (os, ws) := options ['d', 't', 'r'] c.arguments
  let given : Except String (Option Instant) :=
    match os.lookup 'd', os.lookup 't', os.lookup 'r' with
    | some d, _, _ =>
      match instant? d with
      | some t => .ok (some t)
      | none => .error ("invalid date format " ++ named d)
    | none, some s, _ =>
      match stamp? s with
      | some t => .ok (some t)
      | none => .error ("invalid date format " ++ named s)
    | none, none, some f =>
      match c.host.find true (toPath f) with
      | .ok (_, .file _ t _) => .ok (some t)
      | .ok (_, .directory t) => .ok (some t)
      | .ok _ => .ok (some 0)
      | .error n => .error ("failed to get attributes of " ++ named f ++ because n)
    | none, none, none => .ok none
  match given with
  | .error m => c.quiet.fault c m
  | .ok time? =>
    if ws = [] then c.quiet.misuse c "missing file operand"
    else forEach c ws fun h w =>
      let p := toPath w
      let (now, h) := h.tick
      let time := time?.getD now
      let result :=
        match h.find true p with
        | .ok _ => h.setTime p time
        | .error n =>
          if n = Errno.notFound then
            if isGiven os 'c' then .ok h else h.write p [] (some time)
          else .error n
      result.mapError fun n => "cannot touch " ++ named w ++ because n

/-- Remove files. -/
def rm (c : Call) : Ending :=
  let (os, ws) := options [] (withoutLong c.arguments)
  let force := isGiven os 'f'
  let recursive := isGiven os 'r' || isGiven os 'R'
  if ws = [] ∧ force = false then c.quiet.misuse c "missing operand"
  else forEach c ws fun h w =>
    match h.find false (toPath w) with
    | .error n =>
      if force ∧ (n = .notFound ∨ n = .notADirectory) then .ok h
      else .error ("cannot remove " ++ named w ++ because n)
    | .ok (q, .directory _) =>
      if recursive then .ok (h.erase q)
      else if isGiven os 'd' ∧ h.names q = [] then .ok (h.erase q)
      else .error ("cannot remove " ++ named w ++ because .isADirectory)
    | .ok (q, _) => .ok (h.erase q)

/-- Make directories. -/
def mkdir (c : Call) : Ending :=
  let (os, ws) := options ['m'] (withoutLong c.arguments)
  if ws = [] then c.quiet.misuse c "missing operand"
  else forEach c ws fun h w =>
    if isGiven os 'p' then
      (h.makeDirectories (toPath w)).mapError fun n =>
        let isBlocked (a : Path) : Bool := (h.find true a).isOk && !h.isDirectory a
        match (Host.ancestors (toPath w)).find? isBlocked with
        | some a =>
          let spelled := ofBytes a.toBytes
          "cannot create directory " ++ named spelled
            ++ because (if spelled = w then .alreadyExists else .notADirectory)
        | none => "cannot create directory " ++ named w ++ because n
    else (h.makeDirectory (toPath w)).mapError fun n =>
      "cannot create directory " ++ named w ++ because n

/-- Remove empty directories. -/
def rmdir (c : Call) : Ending :=
  let (_, ws) := options [] c.arguments
  if ws = [] then c.quiet.misuse c "missing operand"
  else forEach c ws fun h w =>
    (h.removeDirectory (toPath w)).mapError fun n => "failed to remove " ++ named w ++ because n

/-- The last name of a path. -/
def lastName (w : Chars) : Chars :=
  match ((cutAt '/' w).filter (· ≠ [])).getLast? with
  | some s => s
  | none => if w = [] then [] else ['/']

/-- The place for `source` at a target, which may be a directory to put it into. -/
def destination (h : Host) (source target : Chars) : Chars :=
  if h.isDirectory (toPath target) then
    (if target.getLast? = some '/' then target else target ++ ['/']) ++ lastName source
  else target

/-- Act on each source with the target that is the last word. -/
def toTarget (c : Call) (ws : List Chars) (act : Host → Chars → Chars → Except String Host) :
    Ending :=
  match ws.reverse with
  | [] => c.quiet.misuse c "missing file operand"
  | [w] => c.quiet.misuse c ("missing destination file operand after " ++ named w)
  | target :: sources =>
    if 2 ≤ sources.length ∧ c.host.isDirectory (toPath target) = false then
      c.quiet.fault c ("target " ++ named target ++ ": No such file or directory")
    else forEach c sources.reverse fun h w => act h w (destination h w target)

/-- Move files. -/
def mv (c : Call) : Ending :=
  let (_, ws) := options [] (withoutLong c.arguments)
  toTarget c ws fun h w goal =>
    match h.find false (toPath w) with
    | .error n => .error ("cannot stat " ++ named w ++ because n)
    | .ok (q, _) =>
      if (h.find false (toPath goal)).toOption.any (·.1 = q) then
        .error (named w ++ " and " ++ named goal ++ " are the same file")
      else
        (h.rename (toPath w) (toPath goal)).mapError fun n =>
          if n = .notADirectory ∧ (h.find true (toPath goal)).isOk then
            "cannot overwrite non-directory " ++ named goal ++ " with directory " ++ named w
          else "cannot move " ++ named w ++ " to " ++ named goal ++ because n

/-- Copy what stands at a place, and all below it, to another. -/
def copyTree (h : Host) (q q' : Place) (keepTimes : Bool) : Host :=
  (h.nodes.filter fun e => q.isPrefixOf e.1).foldl (fun h e =>
    let (now, h) := h.tick
    let node : Node :=
      match e.2 with
      | .file content t x => .file content (if keepTimes then t else now) x
      | .directory t => .directory (if keepTimes then t else now)
      | n => n
    h.set (q' ++ e.1.drop q.length) node) h

/-- Copy files. -/
def cp (c : Call) : Ending :=
  let (os, ws) := options [] (withoutLong c.arguments)
  let keepTimes := isGiven os 'p' || isGiven os 'a'
  let recursive := isGiven os 'r' || isGiven os 'R' || isGiven os 'a'
  toTarget c ws fun h w goal =>
    match h.find (!recursive) (toPath w) with
    | .error n => .error ("cannot stat " ++ named w ++ because n)
    | .ok (q, node) =>
      let refused (n : Errno) : Except String Host :=
        .error ("cannot create regular file " ++ named goal ++ because n)
      match node with
      | .directory _ =>
        if recursive then
          match h.place true (toPath goal) with
          | .ok q' =>
            match h.get? q' with
            | some (.file _ _ _) =>
              .error ("cannot overwrite non-directory " ++ named goal ++ " with directory "
                ++ named w)
            | _ => .ok (copyTree h q q' keepTimes)
          | .error n => .error ("cannot create directory " ++ named goal ++ because n)
        else .error ("-r not specified; omitting directory " ++ named w)
      | .file content t x =>
        match h.place true (toPath goal) with
        | .error n => refused n
        | .ok q' =>
          if q = q' then .error (named w ++ " and " ++ named goal ++ " are the same file")
          else
            match h.write (toPath goal) content (if keepTimes then some t else none) with
            | .ok h =>
              match h.get? q' with
              | some (.file b s _) => .ok (if x then h.set q' (.file b s x) else h)
              | _ => .ok h
            | .error n => refused n
      | .link target => (h.makeLink (toPath goal) target).mapError fun n =>
          "cannot create symbolic link " ++ named goal ++ because n
      | .device _ => (h.write (toPath goal) []).mapError fun n =>
          "cannot create regular file " ++ named goal ++ because n

/-- Make links. A link that is not symbolic is a copy. -/
def ln (c : Call) : Ending :=
  let (os, ws) := options [] (withoutLong c.arguments)
  let symbolic := isGiven os 's'
  let ws := match ws with
    | [w] => [w, ['.']]
    | ws => ws
  let asFile := isGiven os 'n' || isGiven os 'T'
  match ws.reverse with
  | [] => c.quiet.misuse c "missing file operand"
  | target :: sources => forEach c sources.reverse fun h w =>
    let goal := if asFile then target else destination h w target
    let h := if isGiven os 'f' then
        match h.find false (toPath goal) with
        | .ok (_, .directory _) => h
        | .ok (q, _) => h.erase q
        | .error _ => h
      else h
    if symbolic then
      (h.makeLink (toPath goal) (toPath w)).mapError fun n =>
        "failed to create symbolic link " ++ named goal ++ because n
    else
      match h.find false (toPath w), h.place false (toPath goal) with
      | .error n, _ => .error ("failed to access " ++ named w ++ because n)
      | _, .error n => .error ("failed to create hard link " ++ named goal ++ because n)
      | .ok (_, node), .ok q =>
        match node, h.get? q with
        | .directory _, _ => .error (text w ++ ": hard link not allowed for directory")
        | _, some _ =>
          .error ("failed to create hard link " ++ named goal ++ because .alreadyExists)
        | node, none => .ok (h.set q node)

/-- List files, and what directories hold. -/
def ls (c : Call) : Ending :=
  let (os, ws) := options [] (withoutLong c.arguments)
  let inOrder (l : List Chars) : List Chars :=
    let l := l.mergeSort fun a b => Bytes.isBefore (toBytes a) (toBytes b)
    if isGiven os 'r' then l.reverse else l
  let listing (h : Host) (q : Place) : List Chars :=
    let all := isGiven os 'a'
    let names := (h.names q).map fun s => ofBytes s.bytes
    let shownNames := if all || isGiven os 'A' then names else names.filter (·.head? != some '.')
    inOrder ((if all then [['.'], ['.', '.']] else []) ++ shownNames)
  let ws := if ws = [] then [['.']] else ws
  let isSingle : Bool := ws.length = 1
  let isMissing (w : Chars) : Bool := (c.host.find true (toPath w)).toOption.isNone
    && (c.host.find false (toPath w)).toOption.isNone
  let e := (ws.filter isMissing).foldl (fun e w =>
    match c.host.find false (toPath w) with
    | .error n => e.fault c ("cannot access " ++ named w ++ because n) 2
    | .ok _ => e) c.quiet
  let isDirectory (w : Chars) : Bool := c.host.isDirectory (toPath w) && !isGiven os 'd'
  let present := inOrder (ws.filter fun w => !isMissing w)
  let files := present.filter fun w => !isDirectory w
  let directories := present.filter isDirectory
  let blocks := directories.map fun w =>
    match c.host.find true (toPath w) with
    | .ok (q, _) => (if isSingle then [] else w ++ ":\n".toList) ++ unlines (listing c.host q)
    | .error _ => []
  e.add (['\n'].intercalate ((if files = [] then [] else [unlines files]) ++ blocks))

/-- The nodes at a place and below it, with the paths that lead there from `w`, to some depth. -/
def below (h : Host) : Nat → Chars → Place → List (Chars × Node)
  | 0, _, _ => []
  | n + 1, w, q =>
    match h.get? q with
    | some (.directory t) =>
      let front := if w.getLast? = some '/' then w else w ++ ['/']
      (w, .directory t) :: (h.names q).flatMap fun s =>
        below h n (front ++ ofBytes s.bytes) (q ++ [s])
    | some node => [(w, node)]
    | none => []

/-- Find files below directories, by name and type. -/
def find (c : Call) : Ending :=
  let ws := c.arguments.takeWhile (·.head? ≠ some '-')
  let rest := c.arguments.drop ws.length
  let valueOf (name : String) : Option Chars :=
    (rest.drop ((rest.takeWhile (· ≠ name.toList)).length + 1)).head?
  let isWanted (w : Chars) (n : Node) : Bool :=
    (match valueOf "-type", n with
      | none, _ => true
      | some ['f'], .file _ _ _ => true
      | some ['d'], .directory _ => true
      | some ['l'], .link _ => true
      | _, _ => false) &&
    (match valueOf "-name" with
      | none => true
      | some p => patternMatches (p.map fun x => ⟨x, false, false⟩) (lastName w))
  let depth := ((valueOf "-maxdepth").bind decimal?).getD 1000
  (if ws = [] then [['.']] else ws).foldl (fun e w =>
    match c.host.find false (toPath w) with
    | .error n => e.fault c (named w ++ because n)
    | .ok (q, _) =>
      e.add (unlines (((below c.host (depth + 1) w q).filter fun f => isWanted f.1 f.2).map (·.1))))
    c.quiet

/-- Show what links name. -/
def readlink (c : Call) : Ending :=
  let (os, ws) := options [] c.arguments
  ws.foldl (fun e w =>
    if isGiven os 'f' || isGiven os 'e' then
      match c.host.place true (toPath w) with
      | .ok q => e.add (ofBytes (Host.pathOf q).toBytes ++ ['\n'])
      | .error _ => { e with status := 1 }
    else
      match c.host.find false (toPath w) with
      | .ok (_, .link target) => e.add (ofBytes target.toBytes ++ ['\n'])
      | _ => { e with status := 1 }) c.quiet

/-- Change whether files may be executed. -/
def chmod (c : Call) : Ending :=
  match c.arguments.filter fun w => w ≠ "-R".toList with
  | mode :: ws =>
    let executable? : Option Bool :=
      if mode.all Char.isDigit then some (mode.any fun d => d = '1' ∨ d = '5' ∨ d = '7')
      else if 'x' ∉ mode then none
      else some ('-' ∉ mode)
    forEach c ws fun h w =>
      match h.find true (toPath w) with
      | .ok (q, .file content t x) => .ok (h.set q (.file content t (executable?.getD x)))
      | .ok _ => .ok h
      | .error n => .error ("cannot access " ++ named w ++ because n)
  | [] => c.quiet.misuse c "missing operand"

/-- The last name of a path, without an ending. -/
def basename (c : Call) : Ending :=
  match (options [] c.arguments).2 with
  | w :: rest =>
    let name := lastName w
    let ending := rest.headD []
    let cutName := if ending ≠ name ∧ ending.isSuffixOf name then
      name.take (name.length - ending.length) else name
    c.prints (cutName ++ ['\n'])
  | [] => c.quiet.misuse c "missing operand"

/-- A path without its last name. -/
def dirname (c : Call) : Ending :=
  let above (w : Chars) : Chars :=
    let trimmed := (w.reverse.dropWhile (· = '/')).reverse
    if trimmed = [] then (if w = [] then ['.'] else ['/'])
    else
      let front := (trimmed.reverse.dropWhile (· ≠ '/')).reverse
      let front' := (front.reverse.dropWhile (· = '/')).reverse
      if front = [] then ['.'] else if front' = [] then ['/'] else front'
  match (options [] c.arguments).2 with
  | [] => c.quiet.misuse c "missing operand"
  | ws => c.prints (unlines (ws.map above))

/-- Copy standard input to files and to the output. -/
def tee (c : Call) : Ending :=
  let (os, ws) := options [] c.arguments
  let e := forEach c ws fun h w =>
    let old := if isGiven os 'a' then ((h.read (toPath w)).toOption).getD [] else []
    (h.write (toPath w) (old ++ toBytes c.input)).mapError fun n => plainComplaint w n
  { e.add c.input with readsInput := true }

/-- Show facts about files: their times, sizes and names. -/
def stat (c : Call) : Ending :=
  let (os, ws) := options ['c'] c.arguments
  let format := (os.lookup 'c').getD []
  let rec fill (w : Chars) (t : Instant) (size : Nat) (kind : String) : Chars → Chars
    | '%' :: 'Y' :: r => shown (t / 1000000000) ++ fill w t size kind r
    | '%' :: 's' :: r => shown size ++ fill w t size kind r
    | '%' :: 'n' :: r => w ++ fill w t size kind r
    | '%' :: 'F' :: r => kind.toList ++ fill w t size kind r
    | x :: r => x :: fill w t size kind r
    | [] => ['\n']
  ws.foldl (fun e w =>
    match c.host.find (isGiven os 'L') (toPath w) with
    | .ok (_, .file content t _) =>
      e.add (fill w t content.length
        (if content = [] then "regular empty file" else "regular file") format)
    | .ok (_, .directory t) => e.add (fill w t 4096 "directory" format)
    | .ok (_, .link target) => e.add (fill w 0 target.toBytes.length "symbolic link" format)
    | .ok (_, .device _) => e.add (fill w 0 0 "character special file" format)
    | .error n => e.fault c ("cannot statx " ++ named w ++ because n)) c.quiet

end PollWatch.Shell.Utility
