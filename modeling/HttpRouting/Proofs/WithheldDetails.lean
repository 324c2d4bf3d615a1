import HttpRouting.Pipeline.Recovery
import HttpRouting.Proofs.AllowField

/-!
# What a server error does not tell

The standard error handler answers a server error by its status alone: with the standard reason of
the status, and with no field that another failure of this status would not get.  So two failed
requests with one such status get one response, whatever failed and whatever it said.
-/

namespace HttpRouting

/-- The response that says no more than a status. -/
def Response.ofStatus (s : Status) : Response :=
  Response.plainText s (s.reason?.getD "server error")

theorem Failure.allowValue?_of_isServerError {f : Failure} (h : f.statusOf.isServerError = true) :
    f.allowValue? = none := by
  cases f with
  | methodNotAllowed allowed => contradiction
  | _ => rfl

theorem ErrorHandler.page_of_isServerError {f : Failure} (h : f.statusOf.isServerError = true) :
    page f = Response.ofStatus f.statusOf := by
  simp only [page, Failure.allowValue?_of_isServerError h, publicText, if_pos h, Response.ofStatus]

namespace App

variable {a b : App} {w w' v v' : World} {failure failure' : Failure}

theorem run_dispatch_of_isServerError (hstandard : a.errorHandler = ErrorHandler.standard)
    (hfailed : a.handle.run w = (.ok (.error failure), v))
    (hserver : failure.statusOf.isServerError = true) :
    ∃ z, a.dispatch.run w = (.ok (Response.ofStatus failure.statusOf), z) := by
  have hmade : a.errorHandler.answer v.context failure =
      .ok (Response.ofStatus failure.statusOf) := by
    rw [hstandard, ← ErrorHandler.page_of_isServerError hserver]
    rfl
  have hsent := run_dispatch_of_failure hfailed hmade
  rw [Response.withAllow, Failure.allowValue?_of_isServerError hserver] at hsent
  exact ⟨_, hsent⟩

/-- Two requests that fail with one status of a server error get one response, which is made from
that status alone: not from the kind of the failure or its text, nor from the requests, what was
done with them or the applications. -/
theorem details_withheld (hstandard : a.errorHandler = ErrorHandler.standard)
    (hstandard' : b.errorHandler = ErrorHandler.standard)
    (hfailed : a.handle.run w = (.ok (.error failure), v))
    (hfailed' : b.handle.run w' = (.ok (.error failure'), v'))
    (hsame : failure.statusOf = failure'.statusOf)
    (hserver : failure.statusOf.isServerError = true) :
    ∃ sent z z', a.dispatch.run w = (.ok sent, z) ∧ b.dispatch.run w' = (.ok sent, z') ∧
      sent = Response.ofStatus failure.statusOf := by
  obtain ⟨z, hsent⟩ := run_dispatch_of_isServerError hstandard hfailed hserver
  obtain ⟨z', hsent'⟩ := run_dispatch_of_isServerError hstandard' hfailed' (hsame ▸ hserver)
  rw [← hsame] at hsent'
  exact ⟨_, z, z', hsent, hsent', rfl⟩

end App

def Draft.loose : Draft :=
  ((Draft.empty.wrap Layer.recover).route "/login"
    (RouteSpec.ofMethod "GET" (.panic ⟨some "password=hunter2"⟩))).route "/orders"
      (RouteSpec.ofMethod "GET" (.done (.error (.other "no table orders_old"))))

def Request.toPath (path : String) : Request := { forRoot with target := ⟨none, path, none⟩ }

theorem App.details_withheld_loose :
    ∃ a, Draft.loose.build = .ok a ∧
      (a.handle.run (World.start (Request.toPath "/login"))).1 =
        .ok (.error (.internal "password=hunter2")) ∧
      (a.handle.run (World.start (Request.toPath "/orders"))).1 =
        .ok (.error (.other "no table orders_old")) ∧
      ∃ sent z z', a.dispatch.run (World.start (Request.toPath "/login")) = (.ok sent, z) ∧
        a.dispatch.run (World.start (Request.toPath "/orders")) = (.ok sent, z') ∧
        sent = Response.plainText ⟨500⟩ "Internal Server Error" := by
  have hruns : (Draft.loose.build.toOption.map fun a =>
      ((a.handle.run (World.start (Request.toPath "/login"))).1,
        (a.handle.run (World.start (Request.toPath "/orders"))).1)) =
      some (.ok (.error (.internal "password=hunter2")),
        .ok (.error (.other "no table orders_old"))) := by decide +kernel
  obtain ⟨a, hbuild, hboth⟩ := Draft.exists_build_of_toOption_map hruns
  obtain ⟨hlogin, horders⟩ := Prod.mk.inj hboth
  have hstandard : a.errorHandler = ErrorHandler.standard := Draft.errorHandler_eq hbuild
  exact ⟨a, hbuild, hlogin, horders, App.details_withheld hstandard hstandard
    (Prod.ext hlogin rfl) (Prod.ext horders rfl) rfl rfl⟩

end HttpRouting
