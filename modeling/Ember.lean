import Ember.Library.Machine
import Ember.Library.Directory
import Ember.Error
import Ember.Crates
import Ember.Component.Loader
import Ember.Registry.Store
import Ember.Registry.Puts
import Ember.Http.Bridge
import Ember.Registry.Oci
import Ember.Registry.Pin
import Ember.Http.Egress
import Ember.Library.QuotaMap
import Ember.Runtime.TenantId
import Ember.Wasi.MemFs
import Ember.Component.Linker
import Ember.Config
import Ember.Library.Pass
import Ember.Runtime.Pool
import Ember.Telemetry
import Ember.Runtime
import Ember.Runtime.Reload
import Ember.Library.Lending
import Ember.Runtime.Invoke
import Ember.Runtime.Instances
import Ember.Runtime.Budget
import Ember.Runtime.Live
import Ember.Runtime.Drain
import Ember.Runtime.Server
import Ember.Runtime.Passes
import Ember.Library.Streak
import Ember.Runtime.Failures
import Ember.Registry.Crash
import Ember.Library.Roster
import Ember.Runtime.Build
import Ember.Http.Ingress
import Ember.Runtime.Boundary
import Ember.Runtime.Sequential
import Ember.Http.Fidelity
import Ember.Library.Labels
import Ember.Http.Labels
import Ember.Component.Scratch
import Ember.Config.Validate
import Ember.Config.Memory
import Ember.Registry.Digest
import Ember.Component.Contract
import Ember.Library.Visitor
import Ember.Config.Schema
import Ember.Registry.Leftovers
import Ember.Registry.Reference
import Ember.Runtime.Paths
import Ember.Runtime.Front
import Ember.Library.Tally
import Ember.Runtime.Counters
import Ember.Http.Literals
import Ember.Http.Rules
import Ember.Library.Notice
import Ember.Runtime.Gauges
import Ember.Library.Rank
import Ember.Library.Service
import Ember.Registry.Cache
import Ember.Runtime.Guests
import Ember.Runtime.Progress
import Ember.Runtime.Storage
import Ember.Library.Stutter
import Ember.Runtime.Deployment
import Ember.Runtime.History
import Ember.Runtime.Warm
import Ember.Config.Grammar
import Ember.Config.Load
import Ember.Config.Order
import Ember.Runtime.Startup
import Ember.Config.Express
import Ember.Runtime.Outbound
import Ember.Runtime.Provenance
