import OfflineSchedule.Convention
import OfflineSchedule.Http.Remote
/-!
# Showing a con once

A client that answers one question and is done: it activates or refreshes a con, waits for all
reloads, and gives the text to print. Its server answers each request at once.
-/

namespace OfflineSchedule

open Http (Outcome)
open Json (Value)
open Sync (Move Progress Reload)
open Time (Instant)

/-- Whoever answers requests at once. -/
structure Service (σ : Type) where
  ask : Resource → (con : String) → (etag : Option String) → σ → Outcome Value × σ

/-- The service of a server. A request that it keeps fails in the end. -/
def Http.Remote.service : Service Http.Remote where
  ask r con etag h :=
    let (o, h) := h.ask con r.name etag
    (o.getD (.error Http.transportCode), h)

structure Client (σ : Type) where
  server : σ
  store : Store
  convention : Convention

namespace Client

variable {σ : Type}

/-! ## Reloads from the request to the end -/

def act (r : Resource) (m : Move) (c : Client σ) : Progress × Client σ :=
  let (p, store, convention) := c.convention.step r m c.store
  (p, { c with store, convention })

/-- A reload makes so many requests at most. -/
def requestLimit : Nat := 2

/-- Carries on until no request is out. -/
def carry (v : Service σ) (r : Resource) :
    (requests : Nat) → Progress → Client σ → Progress × Client σ
  | requests + 1, .sent ticket f, c =>
    let (o, server) := v.ask r f.con f.etag c.server
    let (p, c) := { c with server }.act r (.answer ticket 0 o)
    carry v r requests p c
  | _, p, c => (p, c)

/-- Makes a move and carries it through. -/
def perform (v : Service σ) (r : Resource) (m : Move) (c : Client σ) : Progress × Client σ :=
  let (p, c) := c.act r m
  carry v r requestLimit p c

/-- Refreshes a resource, and waits for a reload in the background if that does it. -/
def refresh (v : Service σ) (con : String) (r : Resource) (c : Client σ) : Progress × Client σ :=
  match c.perform v r (.refresh con) with
  | (.joined ticket, c) => c.perform v r (.start ticket)
  | result => result

/-- Does the same for each of some resources, and collects what it leads to. -/
def forEach (f : Resource → Client σ → Progress × Client σ) :
    List Resource → Client σ → List (Resource × Progress) × Client σ
  | [], c => ([], c)
  | r :: rs, c =>
    let (p, c) := f r c
    let (results, c) := forEach f rs c
    ((r, p) :: results, c)

/-- Waits for the reloads in the background that activations have left. -/
def revalidate (v : Service σ) : List (Resource × Progress) → Client σ → Client σ
  | [], c => c
  | (r, .cached (some ticket)) :: rs, c => revalidate v rs (c.perform v r (.start ticket)).2
  | _ :: rs, c => revalidate v rs c

/-! ## Texts -/

def reloadLine (r : Resource) (p : Progress) : String :=
  padRight 15 (r.name ++ ":") ++ (match p with
    | .ended reload => reload.describe
    | _ => "") ++ "\n"

/-- How the reload of each resource ended. -/
def reloadText (results : List (Resource × Progress)) : String :=
  String.join (results.map fun (r, p) => reloadLine r p)

def summaryText (con : String) (now : Instant) (c : Client σ) : String :=
  (c.convention.summary con now).text

def clearedText : String := "Cache cleared.\n"

/-! ## What can be asked for -/

/-- Shows a con, after the server has been asked once for what was cached. -/
def display (v : Service σ) (con : String) (now : Instant) (c : Client σ) : String × Client σ :=
  let (results, c) := forEach (fun r c => c.perform v r (.activate con)) c.convention.resources c
  let c := c.revalidate v results
  (c.summaryText con now, c)

/-- Asks the server for every resource of a con, and shows how that ended and the con. -/
def reload (v : Service σ) (con : String) (now : Instant) (c : Client σ) : String × Client σ :=
  let (results, c) := forEach (refresh v con) c.convention.resources c
  (reloadText results ++ c.summaryText con now, c)

/-- Drops what is cached. -/
def clear (c : Client σ) : String × Client σ :=
  let (store, convention) := c.convention.clear c.store
  (clearedText, { c with store, convention })

end Client

end OfflineSchedule
