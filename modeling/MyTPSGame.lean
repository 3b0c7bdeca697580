import MyTPSGame.Machine.Run
import MyTPSGame.Machine.Account
import MyTPSGame.Machine.Simulation
import MyTPSGame.Arith.Staircase
import MyTPSGame.Arith.Cycle
import MyTPSGame.Arith.Variation
import MyTPSGame.Arith.Turn
import MyTPSGame.Model.Engine
import MyTPSGame.Model.GameMode
import MyTPSGame.Model.EnemyFSM
import MyTPSGame.Model.EnemyAct
import MyTPSGame.Model.Player
import MyTPSGame.Model.World
import MyTPSGame.Model.WorldStep
import MyTPSGame.Model.EnemyTrace
import MyTPSGame.Model.Health
import MyTPSGame.Progress.Experience
import MyTPSGame.Progress.Wave
import MyTPSGame.Progress.Closed
import MyTPSGame.Progress.Level
import MyTPSGame.Enemy.AttackRate
import MyTPSGame.Enemy.Life
import MyTPSGame.Enemy.Death
import MyTPSGame.Enemy.Reach
import MyTPSGame.Enemy.Representation
import MyTPSGame.Enemy.Animation
import MyTPSGame.Enemy.Patrol
import MyTPSGame.Enemy.Hysteresis
import MyTPSGame.Player.GameOver
import MyTPSGame.Player.Ammo
import MyTPSGame.Player.AutoFire
import MyTPSGame.Player.Zoom
import MyTPSGame.Model.Spawner
import MyTPSGame.Progress.SpawnTimer
import MyTPSGame.Model.FireTrace
import MyTPSGame.Player.Magazine
import MyTPSGame.Player.Shots
import MyTPSGame.Progress.SpawnPoint
import MyTPSGame.Model.PlayerMove
import MyTPSGame.Player.Pitch
import MyTPSGame.Machine.Commute
import MyTPSGame.Order.Interleaving
import MyTPSGame.Order.Startup
import MyTPSGame.Progress.Counters
import MyTPSGame.Progress.Limit
import MyTPSGame.Machine.Clock
import MyTPSGame.Progress.Price
import MyTPSGame.Timed.Game
import MyTPSGame.Timed.Pace
import MyTPSGame.Timed.Survival
import MyTPSGame.Enemy.Response
import MyTPSGame.Timed.Siege
import MyTPSGame.Enemy.Crash
import MyTPSGame.Machine.Reach
import MyTPSGame.Progress.Winnable
import MyTPSGame.Timed.Burial
import MyTPSGame.Machine.Track
import MyTPSGame.Model.Input
import MyTPSGame.Player.Controls
import MyTPSGame.Player.Walk
import MyTPSGame.Machine.Lease
import MyTPSGame.Timed.Bullets
import MyTPSGame.Timed.Session
