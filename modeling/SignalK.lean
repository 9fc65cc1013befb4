import SignalK.Lib.Text
import SignalK.Lib.HashMap
import SignalK.Lib.Machine
import SignalK.Lib.Register
import SignalK.Lib.SortedMap
import SignalK.Types.Json
import SignalK.Types.Delta
import SignalK.Types.Path
import SignalK.Types.Meta
import SignalK.Types.Full
import SignalK.Types.Ws
import SignalK.Store.Store
import SignalK.Store.Subscription
import SignalK.Store.Ledger
import SignalK.Store.Retention
import SignalK.Store.Arbitration
import SignalK.Store.Replay
import SignalK.Ws.Connection
import SignalK.Ws.Isolation
import SignalK.Ws.Throttle
import SignalK.Ws.Convergence
import SignalK.Plugins.Host
import SignalK.Types.Nesting
import SignalK.Types.RoundTrip
import SignalK.Store.FullModel
import SignalK.Api.Lossless
import SignalK.Types.Resources
import SignalK.Course.Manager
import SignalK.Course.Projection
import SignalK.Course.Agreement
import SignalK.Course.Coverage
import SignalK.Lib.Thread
import SignalK.Lib.Control
import SignalK.Course.Calls
import SignalK.Course.Atomicity
import SignalK.Course.Concurrency
import SignalK.Course.ApiOnly
import SignalK.Course.Arrival
import SignalK.Ais.Cpa
import SignalK.Ais.Tracker
import SignalK.Ais.Plugin
import SignalK.Ais.Lifecycle
import SignalK.Ais.Collision
import SignalK.Autopilot.Pd
import SignalK.Autopilot.Loop
import SignalK.Autopilot.Tick
import SignalK.Autopilot.Disengaged
import SignalK.Autopilot.Feedback
import SignalK.Autopilot.Freshness
import SignalK.Autopilot.Limits
import SignalK.Notifications.Manager
import SignalK.Notifications.Api
import SignalK.Notifications.Silence
import SignalK.Notifications.Clear
import SignalK.Lib.Episode
import SignalK.Notifications.Identity
import SignalK.Plugins.Manager
import SignalK.Plugins.Stop
import SignalK.Lib.Calendar
import SignalK.Lib.Digits
import SignalK.Lib.Rfc3339
import SignalK.History.Query
import SignalK.History.Provider
import SignalK.History.Columns
import SignalK.History.Range
import SignalK.History.Panic
import SignalK.History.Aggregation
import SignalK.DerivedData.Calculator
import SignalK.DerivedData.Navigation
import SignalK.Lib.Dataflow
import SignalK.DerivedData.Environment
import SignalK.DerivedData.Callback
import SignalK.DerivedData.Graph
import SignalK.DerivedData.Consistent
import SignalK.DerivedData.Current
import SignalK.Autopilot.Steering
import SignalK.Autopilot.Alarms
import SignalK.Autopilot.Frames
import SignalK.Autopilot.Track
import SignalK.Lib.Spawn
import SignalK.Plugins.Order
import SignalK.Notifications.Agreement
import SignalK.Notifications.Anchor
import SignalK.Autopilot.NextPoint
import SignalK.Plugins.Remote
import SignalK.Lib.OrderedMap
import SignalK.Plugins.Bridge
import SignalK.Tracks.Recorder
import SignalK.Tracks.Points
import SignalK.Tracks.Query
import SignalK.Tracks.Requests
import SignalK.Lib.Files
import SignalK.Lib.Paths
import SignalK.UnitPreferences.Manager
import SignalK.UnitPreferences.Restart
import SignalK.Api.ApplicationData
import SignalK.Lib.Sequential
import SignalK.Resources.FileProvider
import SignalK.UnitPreferences.Presets
import SignalK.Api.Confinement
import SignalK.Api.DocumentWrites
import SignalK.Resources.Histories
import SignalK.Nmea.Pgns
import SignalK.Nmea.Buses
import SignalK.History.Ingestion
import SignalK.History.OneHistory
import SignalK.ConfigStore.Store
import SignalK.ConfigStore.Restart
import SignalK.ConfigStore.Setters
import SignalK.Lib.Merge
import SignalK.Resources.Registry
import SignalK.Resources.Listing
import SignalK.Resources.Owners
import SignalK.Ws.HashOrder
import SignalK.Ws.Unsubscribe
import SignalK.Store.SourceRefs
import SignalK.Store.SourcesTree
import SignalK.Store.Ttl
import SignalK.Lib.Segment
import SignalK.Tracks.Simplify
import SignalK.History.Buckets
import SignalK.History.OuterJoin
import SignalK.Autopilot.Plausibility
import SignalK.Autopilot.Watchdogs
import SignalK.Autopilot.Convergence
import SignalK.Lib.Glob
import SignalK.Types.Wildcards
import SignalK.Course.Circle
import SignalK.Course.Following
import SignalK.Ais.Story
import SignalK.History.Durations
import SignalK.Api.SourceSelect
import SignalK.Types.Scalar
import SignalK.Ais.Approach
import SignalK.DerivedData.Triangle
import SignalK.Nmea.Transducers
import SignalK.Nmea.Validity
import SignalK.Nmea.Gateway
import SignalK.Notifications.Enrichment
import SignalK.Tracks.Exact
import SignalK.Plugins.PutPath
import SignalK.Plugins.Uds
import SignalK.Ais.OwnShip
import SignalK.UnitPreferences.Bulk
import SignalK.Lib.Arc
import SignalK.Autopilot.Filter
import SignalK.Plugins.Registry
import SignalK.Plugins.Mirror
import SignalK.Lib.LineReader
import SignalK.Nmea.Dispatch
import SignalK.Nmea.Reader
import SignalK.Lib.Topics
import SignalK.Plugins.StreamBundle
import SignalK.Lib.Toml
import SignalK.Lib.TomlReading
import SignalK.Lib.TomlNumbers
import SignalK.Lib.TomlDocument
import SignalK.Types.JsonText
import SignalK.Api.ConfigReference
import SignalK.Api.ReferenceText
import SignalK.Lib.Locks
import SignalK.Plugins.Providers
import SignalK.Resources.Calls
import SignalK.Lib.Xml
import SignalK.Tracks.Gpx
import SignalK.Tracks.GeoJson
import SignalK.Ws.Statistics
import SignalK.Lib.Transactions
import SignalK.Sqlite.Migration
